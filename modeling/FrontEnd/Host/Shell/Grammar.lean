/-
# The grammar of scripts

A script is read one line of commands at a time, by `Source.readLine?`; a command that is not
complete takes more lines.

Words and commands contain each other, so all readers are defined together.  Each step takes
one from a bound, which starts at a multiple of the number of characters.
-/
import FrontEnd.Host.Shell.Source

namespace FrontEnd.Shell

open Text (Octets)

/-- Where a part of a word stands. -/
inductive Place where
  /-- Outside of quotes. -/
  | bare
  /-- Outside of quotes, where dollar signs mean nothing. -/
  | delimiter
  /-- In braces outside of quotes. -/
  | braces
  /-- Between double quotes, perhaps in braces that are themselves between double quotes. -/
  | double (inBraces : Bool)
  /-- In braces between double quotes. -/
  | doubleBraces
  /-- In a text between the lines. -/
  | document
  /-- In an expression, and in so many parentheses there. -/
  | arithmetic (depth : Nat)
  deriving DecidableEq, Repr

/-- A place, and the delimiter of the text between the lines that it belongs to, if it belongs
to one. -/
structure Setting where
  place : Place
  document : Option Delimiter := none
  deriving DecidableEq, Repr

def isBlank (c : Char) : Bool := c == ' ' || c == '\t'

/-- Ends a word outside of quotes. -/
def endsWord (c : Char) : Bool :=
  isBlank c || c == '\n' || c == ';' || c == '&' || c == '|' || c == '<' || c == '>' || c == '('
    || c == ')'

namespace Place

/-- Blanks, single quotes and operators mean nothing here. -/
def isQuoted : Place → Bool
  | bare | delimiter | braces => false
  | double _ | doubleBraces | document | arithmetic _ => true

/-- The character means only itself. -/
def isPlain (p : Place) (c : Char) : Bool :=
  c != '\\' && (c != '$' && c != '`' || p == delimiter) &&
    match p with
    | bare | delimiter => c != '\'' && c != '"' && !endsWord c
    | braces => c != '\'' && c != '"' && c != '}'
    | double _ => c != '"'
    | doubleBraces => c != '"' && c != '}'
    | document => true
    | arithmetic _ => c != '(' && c != ')'

/-- A backslash takes the meaning from the character. -/
def isEscapable (p : Place) (c : Char) : Bool :=
  c == '\\' || c == '`' || c == '$' || c == '"' && p != document
    || c == '}' && (p == doubleBraces || p == double true)

/-- The place of the word between braces.  A pattern is never quoted by quotes around it. -/
def inner (p : Place) (isPattern : Bool) : Place :=
  if p.isQuoted && !isPattern then doubleBraces else braces

end Place

/-- What is wrong if the text ends in a setting. -/
def Setting.unclosed? (s : Setting) : Option String :=
  match s.place with
  | .bare | .delimiter | .document => none
  | .braces => some "Missing '\x7d'"
  | .double _ | .doubleBraces =>
    some (if s.document.isSome then "Missing '\x7d'" else "Unterminated quoted string")
  | .arithmetic _ => some "Missing '))'"

/-- Characters of a place. -/
def Place.part (p : Place) (octets : Octets) : Part :=
  if p.isQuoted then .quoted octets else .text octets

/-- Puts a part in front of a word. -/
def Part.cons : Part → Word → Word
  | .text a, .text b :: rest => .text (a ++ b) :: rest
  | .quoted a, .quoted b :: rest => .quoted (a ++ b) :: rest
  | part, word => part :: word

/-- A word between double quotes.  It is there also if nothing is in it, unless it stands for
all the words that the script was given. -/
def quotedWord : Word → Word
  | [.parameter ['@'] .value q] => [.parameter ['@'] .value q]
  | word => Part.cons (.quoted []) word

/-- The word holds a part that was quoted. -/
def Word.hasQuotes (w : Word) : Bool :=
  w.any fun
    | .quoted _ => true
    | _ => false

/-- The characters of a word in which nothing is expanded. -/
def Word.literal (w : Word) : Octets :=
  w.flatMap fun
    | .text octets | .quoted octets => octets
    | _ => []

/-- The name and the value, if the word is an assignment. -/
def Word.assignment? : Word → Option (Octets × Word)
  | .text octets :: rest =>
    let name := octets.takeWhile isNamePart
    match octets.drop name.length with
    | '=' :: value =>
      if isName name then some (name, if value.isEmpty then rest else Part.cons (.text value) rest)
      else none
    | _ => none
  | _ => none

/-- The parameters that are named by a sign. -/
def isSpecial (c : Char) : Bool := c.isDigit || c ∈ ['@', '*', '#', '?', '-', '$', '!']

/-- The commands whose names no function can have. -/
def specialNames : List String :=
  [".", ":", "break", "continue", "eval", "exec", "exit", "export", "local", "readonly",
    "return", "set", "shift", "times", "trap", "unset"]

/-- The text up to the next backquote, and what follows that.  A backslash is dropped before a
character that it keeps from ending the text or from being expanded. -/
def splitBackquoted (isQuoted : Bool) : Octets → Option (Octets × Octets)
  | [] => none
  | '`' :: rest => some ([], rest)
  | '\\' :: c :: rest =>
    let kept := if c = '\n' then []
      else if c = '\\' || c = '`' || c = '$' || isQuoted && c = '"' then [c] else ['\\', c]
    (splitBackquoted isQuoted rest).map fun (text, after) => (kept ++ text, after)
  | c :: rest => (splitBackquoted isQuoted rest).map fun (text, after) => (c :: text, after)

/-- How many commands a list may hold. -/
inductive Extent where
  /-- The commands of a line. -/
  | line
  /-- At least one command, on any number of lines. -/
  | some
  /-- Any number of commands. -/
  | any
  deriving DecidableEq, Repr

open Reading

/-- The bound was too small. -/
def exhausted {α : Type} : Reading α := complain "too deeply nested"

/-- The sign of a redirection, if it comes after the word, and the descriptor that the word
names. -/
def redirected? (word : Word) (sign : Option Char) : Option (Char × Nat) :=
  match sign, word with
  | some '<', [] => some ('<', 0)
  | some '>', [] => some ('>', 1)
  | some '<', [.text [d]] => if d.isDigit then some ('<', d.toNat - '0'.toNat) else none
  | some '>', [.text [d]] => if d.isDigit then some ('>', d.toNat - '0'.toNat) else none
  | _, _ => none

/-- What follows the sign of a redirection. -/
def readDirection (sign : Char) : Reading Direction := do
  if sign = '>' then
    if ← accept '>' then return .append
    if ← accept '|' then return .overwrite
    if ← accept '&' then return .duplicate
    return .write
  else
    if ← accept '<' then return .document (← accept '-')
    if ← accept '&' then return .duplicate
    if ← accept '>' then return .readWrite
    return .read

/-- What is done with a parameter, as far as it is known before the word. -/
inductive Operation where
  | value
  | length
  | conditional (make : Bool → Word → Use) (ifEmpty : Bool)
  | trim (side : End)
  | unknown

/-- The operation that a character names. -/
def operationOf (ifEmpty : Bool) : Option Char → Operation
  | some '}' => if ifEmpty then .conditional (fun _ => .leading) true else .value
  | some '-' => .conditional .default ifEmpty
  | some '=' => .conditional .assign ifEmpty
  | some '?' => .conditional .require ifEmpty
  | some '+' => .conditional .alternative ifEmpty
  | some '%' => if ifEmpty then .unknown else .trim .back
  | some '#' => if ifEmpty then .unknown else .trim .front
  | _ => .unknown

/-- Goes past the next character; a line feed is not counted. -/
def drop : Reading Unit := modify fun s => { s with rest := s.rest.tail }

/-- Takes the next character; a line feed is not counted. -/
def next : Reading (Option Char) := do
  let c ← peek
  drop
  return c

/-- Reads what is done with a parameter after its name.  The brace that ends a parameter
without a word is taken. -/
def readOperation : Reading Operation := do
  if ← accept ':' then return operationOf true (← next) else return operationOf false (← next)

/-- Reads the name after a brace, and what is done with the parameter. -/
def readParameterName : Reading (Octets × Operation) := do
  let named (c : Char) : Reading Octets := if c.isDigit then takeDigits else takeName
  match ← peek with
  | none => return ([], .unknown)
  | some '}' => return ([], .unknown)
  | some '#' =>
    skip
    match ← peek with
    | some c =>
      if isNamePart c then
        let name ← named c
        return (name, if (← peek) = some '}' then .length else .unknown)
      else
        drop
        if c ≠ '}' ∧ (← peek) = some '}' then
          return ([c], if isSpecial c then .length else .unknown)
        else if c = ':' then return (['#'], operationOf true (← next))
        else return (['#'], operationOf false (some c))
    | none => return (['#'], .unknown)
  | some c =>
    if isNamePart c then
      let name ← named c
      return (name, ← readOperation)
    else
      drop
      if isSpecial c then return ([c], ← readOperation) else return ([c], .unknown)

mutual

/-- Reads a token.  The place is that of a word, if one comes. -/
def scan (place : Place) : Nat → Reading Token
  | 0 => exhausted
  | n + 1 => do
    match ← peek with
    | none => return .endOfText
    | some c =>
      if isBlank c then
        modify fun s => (s.takeRun isBlank).2
        scan place n
      else if c = '#' then
        modify fun s => (s.takeRun (· != '\n')).2
        scan place n
      else if c = '\n' then
        skip
        return .newline
      else if c = '&' || c = '|' || c = ';' then
        skip
        if ← accept c then return .operator (String.ofList [c, c])
        else return .operator (String.ofList [c])
      else if c = '(' || c = ')' then
        skip
        return .operator (String.ofList [c])
      else
        let word ← readWord ⟨place, none⟩ n
        match redirected? word (← peek) with
        | some (sign, descriptor) =>
          skip
          return .redirection descriptor (← readDirection sign)
        | none => return .word word

/-- Reads the rest of a word in a setting, and what closes the setting. -/
def readWord (setting : Setting) : Nat → Reading Word
  | 0 => exhausted
  | n + 1 => do
    let place := setting.place
    match ← peek with
    | none =>
      match setting.unclosed? with
      | none => return []
      | some message => complain message
    | some c =>
      if place.isPlain c then
        match setting.document with
        | none =>
          let (run, source) := (← get).takeRun place.isPlain
          set source
          return (place.part run).cons (← readWord setting n)
        | some delimiter =>
          if c = '\n' then
            skip
            modify Source.joinLines
            let part := place.part [c]
            if ← takeDelimiter delimiter then
              match setting.unclosed? with
              | none => return [part]
              | some message => complain message
            else return part.cons (← readWord setting n)
          else
            let (run, source) := (← get).takeRun fun d => place.isPlain d && d != '\n'
            set source
            return (place.part run).cons (← readWord setting n)
      else if c = '\\' then
        skip
        match (← get).peekRaw with
        | none => return (Part.quoted ['\\']).cons (← readWord setting n)
        | some d =>
          skip
          let octets := if place.isQuoted && !place.isEscapable d then ['\\', d] else [d]
          return (Part.quoted octets).cons (← readWord setting n)
      else if c = '$' then
        skip
        let part ← readExpansion setting n
        return part.cons (← readWord setting n)
      else if c = '`' then
        skip
        match splitBackquoted place.isQuoted (← get).rest with
        | none =>
          modify fun s => { s with line := s.line + s.rest.count '\n' }
          complain "EOF in backquote substitution"
        | some (text, after) =>
          let outer ← get
          let lines := (outer.rest.take (outer.rest.length - after.length)).count '\n'
          set { outer with
            rest := text, line := 1, ahead := none, pending := [], substitutes := [] }
          let command ← readList .any n
          modify fun inner => { outer with
            rest := after, line := outer.line + lines, ahead := none,
            documents := inner.documents, nextIndex := inner.nextIndex }
          return (Part.output (command.getD .nothing) place.isQuoted).cons (← readWord setting n)
      else if c = '\'' then
        skip
        let (run, source) := (← get).takeRun (· != '\'')
        set source
        if source.rest.isEmpty then complain "Unterminated quoted string"
        else
          skip
          return (Part.quoted run).cons (← readWord setting n)
      else if c = '"' then
        skip
        match place with
        | .double _ => return []
        | .doubleBraces =>
          let quoted ← readWord { setting with place := .double true } n
          return quoted.foldr Part.cons (← readWord setting n)
        | _ =>
          let quoted ← readWord { setting with place := .double false } n
          return (quotedWord quoted).foldr Part.cons (← readWord setting n)
      else if c = '}' then
        skip
        return []
      else match place with
        | .arithmetic depth =>
          skip
          if c = '(' then
            return (Part.quoted [c]).cons
              (← readWord { setting with place := .arithmetic (depth + 1) } n)
          else if depth = 0 then
            if ← accept ')' then return []
            else return (Part.quoted [c]).cons (← readWord setting n)
          else
            return (Part.quoted [c]).cons
              (← readWord { setting with place := .arithmetic (depth - 1) } n)
        | _ => return []

/-- Reads what a dollar sign stands for. -/
def readExpansion (setting : Setting) : Nat → Reading Part
  | 0 => exhausted
  | n + 1 => do
    let place := setting.place
    match ← peek with
    | some '(' =>
      skip
      if ← accept '(' then
        return .arithmetic (← readWord { setting with place := .arithmetic 0 } n) place.isQuoted
      else
        let outer ← get
        set { outer with ahead := none, pending := [] }
        let command ← readList .any n
        let token ← take false false n
        if token.isOperator ")" then
          modify fun inner => { inner with pending := outer.pending }
          return .output (command.getD .nothing) place.isQuoted
        else unexpected token (some (.operator ")"))
    | some '{' =>
      skip
      let (name, operation) ← readParameterName
      match operation with
      | .value => return .parameter name .value place.isQuoted
      | .length =>
        discard <| readWord { setting with place := place.inner false } n
        return .parameter name .length place.isQuoted
      | .conditional make ifEmpty =>
        let word ← readWord { setting with place := place.inner false } n
        return .parameter name (make ifEmpty word) place.isQuoted
      | .trim side =>
        let longest ← accept (match side with | .front => '#' | .back => '%')
        let pattern ← readWord { setting with place := place.inner true } n
        return .parameter name (.trim side longest pattern) place.isQuoted
      | .unknown =>
        discard <| readWord { setting with place := place.inner false } n
        return .parameter name .unknown place.isQuoted
    | some c =>
      if isNameStart c then return .parameter (← takeName) .value place.isQuoted
      else if isSpecial c then
        skip
        return .parameter [c] .value place.isQuoted
      else return place.part ['$']
    | none => return place.part ['$']

/-- Takes a token; a keyword is seen as such where it means something, and line feeds are
passed over where they do not. -/
def take (seesKeywords skipsNewlines : Bool) : Nat → Reading Token
  | 0 => exhausted
  | n + 1 => do
    let finish (token : Token) : Reading Token := do
      match token with
      | .newline =>
        if skipsNewlines then
          readDocuments n
          take seesKeywords skipsNewlines n
        else return token
      | _ => return if seesKeywords then token.recognise else token
    let s ← get
    match s.ahead with
    | some token =>
      set { s with ahead := none }
      finish token
    | none =>
      let token ← scan .bare n
      let goesOn ← endsSubstitute s.rest.length
      let token := if seesKeywords then token.recognise else token
      if seesKeywords || goesOn then
        if ← replaceAlias token then return (← take seesKeywords skipsNewlines n)
      finish token

/-- Reads the texts that were asked for. -/
def readDocuments : Nat → Reading Unit
  | 0 => exhausted
  | n + 1 => do
    let s ← get
    match s.pending.reverse with
    | [] => return
    | p :: later =>
      set { s with ahead := none, pending := [] }
      let word ←
        if p.isLiteral then do
          let text ← takeLines p.delimiter (s.rest.length + 1)
          pure [Part.quoted text]
        else
          modify Source.joinLines
          if ← takeDelimiter p.delimiter then pure []
          else readWord ⟨.document, some p.delimiter⟩ n
      modify fun inner => { inner with
        ahead := s.ahead
        pending := later.reverse
        documents := (p.index, word) :: inner.documents }
      readDocuments n

/-- Reads the operand of a redirection. -/
def readRedirection (descriptor : Nat) (direction : Direction) : Nat → Reading Redirection
  | 0 => exhausted
  | n + 1 => do
    let token ← match direction with
      | .document _ => scan .delimiter n
      | _ => take false false n
    match token with
    | .word word =>
      match direction with
      | .read => return ⟨descriptor, .read word⟩
      | .write => return ⟨descriptor, .write word⟩
      | .overwrite => return ⟨descriptor, .overwrite word⟩
      | .append => return ⟨descriptor, .append word⟩
      | .readWrite => return ⟨descriptor, .readWrite word⟩
      | .duplicate => return ⟨descriptor, .duplicate word⟩
      | .document dropTabs =>
        let index ← await ⟨word.literal, dropTabs⟩ word.hasQuotes
        return ⟨descriptor, .document index⟩
    | _ => unexpected token

/-- Reads the redirections after a command. -/
def readRedirections : Nat → Reading (List Redirection)
  | 0 => exhausted
  | n + 1 => do
    let token ← take true false n
    match token with
    | .redirection descriptor direction =>
      let redirection ← readRedirection descriptor direction n
      return redirection :: (← readRedirections n)
    | _ =>
      putBack token
      return []

/-- Reads the rest of a simple command, or of a function.  What was read before is given last
thing first. -/
def readSimple (line : Nat) (assignments : List (Octets × Word)) (words : List Word)
    (redirections : List Redirection) : Nat → Reading Command
  | 0 => exhausted
  | n + 1 => do
    let token ← take false false n
    let finished : Reading Command := do
      putBack token
      return .simple line assignments.reverse words.reverse redirections.reverse
    match token with
    | .word word =>
      match if words.isEmpty then word.assignment? else none with
      | some a => readSimple line (a :: assignments) words redirections n
      | none =>
        let isLookedUp := words.isEmpty && !(assignments.isEmpty && redirections.isEmpty)
        let isReplaced ← if isLookedUp then replaceAlias token else pure false
        if isReplaced then readSimple line assignments words redirections n
        else readSimple line assignments (word :: words) redirections n
    | .redirection descriptor direction =>
      let redirection ← readRedirection descriptor direction n
      readSimple line assignments words (redirection :: redirections) n
    | .operator "(" =>
      match assignments, words, redirections with
      | [], [name], [] =>
        let closing ← take false false n
        if closing.isOperator ")" then
          match name with
          | [.text name] =>
            if isName name ∧ String.ofList name ∉ specialNames then
              return .define name (← readCommand true true n)
            else complain "Bad function name"
          | _ => complain "Bad function name"
        else unexpected closing (some (.operator ")"))
      | _, _, _ => finished
    | _ => finished

/-- Reads a command. -/
def readCommand (seesKeywords skipsNewlines : Bool) : Nat → Reading Command
  | 0 => exhausted
  | n + 1 => do
    let line := (← get).line
    let token ← take seesKeywords skipsNewlines n
    let close (expected : Token) (command : Command) : Reading Command := do
      let closing ← take false false n
      let isExpected := match expected with
        | .keyword text => closing.isKeyword text
        | .operator symbol => closing.isOperator symbol
        | _ => false
      if isExpected then
        let redirections ← readRedirections n
        match command with
        | .subshell line command _ => return .subshell line command redirections
        | _ => return if redirections.isEmpty then command else .group line command redirections
      else unexpected closing (some expected)
    match token with
    | .keyword "if" =>
      let command ← readBranches n
      close (.keyword "fi") command
    | .keyword "while" =>
      let command ← readLoop false n
      close (.keyword "done") command
    | .keyword "until" =>
      let command ← readLoop true n
      close (.keyword "done") command
    | .keyword "for" =>
      let command ← readFor line n
      close (.keyword "done") command
    | .keyword "case" =>
      let subject ← take false false n
      match subject with
      | .word subject =>
        let opening ← take true true n
        if opening.isKeyword "in" then
          let command := Command.select line subject (← readClauses n)
          let redirections ← readRedirections n
          return if redirections.isEmpty then command else .group line command redirections
        else unexpected opening (some (.keyword "in"))
      | _ => unexpected subject (some (.word []))
    | .operator "(" =>
      let body ← readList .some n
      close (.operator ")") (.subshell line (body.getD .nothing) [])
    | .keyword "\x7b" =>
      let body ← readList .some n
      close (.keyword "\x7d") (body.getD .nothing)
    | .word _ | .redirection _ _ =>
      putBack token
      let line := (← get).line
      readSimple line [] [] [] n
    | _ => unexpected token

/-- Reads a test and what depends on it. -/
def readBranches : Nat → Reading Command
  | 0 => exhausted
  | n + 1 => do
    let test ← readList .some n
    let opening ← take false false n
    if opening.isKeyword "then" then
      let thenPart ← readList .some n
      let branch := Command.choice (test.getD .nothing) (thenPart.getD .nothing)
      let token ← take false false n
      if token.isKeyword "elif" then return branch (← readBranches n)
      else if token.isKeyword "else" then return branch ((← readList .some n).getD .nothing)
      else
        putBack token
        return branch .nothing
    else unexpected opening (some (.keyword "then"))

def readLoop (isUntil : Bool) : Nat → Reading Command
  | 0 => exhausted
  | n + 1 => do
    let test ← readList .some n
    let opening ← take false false n
    if opening.isKeyword "do" then
      let body ← readList .some n
      return .loop isUntil (test.getD .nothing) (body.getD .nothing)
    else unexpected opening (some (.keyword "do"))

def readFor (line : Nat) : Nat → Reading Command
  | 0 => exhausted
  | n + 1 => do
    match ← take false false n with
    | .word [.text name] =>
      if isName name then
        let token ← take true true n
        let words ←
          if token.isKeyword "in" then do
            let words ← readWords n
            let after ← take false false n
            match after with
            | .newline | .operator ";" => pure (some words)
            | _ => unexpected after
          else do
            unless token.isOperator ";" do putBack token
            pure none
        let opening ← take true true n
        if opening.isKeyword "do" then
          let body ← readList .some n
          return .each line name words (body.getD .nothing)
        else unexpected opening (some (.keyword "do"))
      else complain "Bad for loop variable"
    | _ => complain "Bad for loop variable"

/-- Reads words up to another token. -/
def readWords : Nat → Reading (List Word)
  | 0 => exhausted
  | n + 1 => do
    let token ← take false false n
    match token with
    | .word word => return word :: (← readWords n)
    | _ =>
      putBack token
      return []

/-- Reads the clauses of a choice by patterns, and what ends them. -/
def readClauses : Nat → Reading (List (List Word × Command))
  | 0 => exhausted
  | n + 1 => do
    let token ← take true true n
    if token.isKeyword "esac" then return []
    else
      let first ← if token.isOperator "(" then take false false n else pure token
      let patterns ← readPatterns first n
      let closing ← take false false n
      if closing.isOperator ")" then
        let body ← readList .any n
        let clause := (patterns, body.getD .nothing)
        let ending ← take true true n
        if ending.isKeyword "esac" then return [clause]
        else if ending.isOperator ";;" then return clause :: (← readClauses n)
        else unexpected ending (some (.operator ";;"))
      else unexpected closing (some (.operator ")"))

/-- Reads the patterns of a clause, the first of which is given.  Anything that is no word
stands for an empty one. -/
def readPatterns (first : Token) : Nat → Reading (List Word)
  | 0 => exhausted
  | n + 1 => do
    let pattern := match first with
      | .word word => word
      | .keyword text => [.text text.toList]
      | _ => []
    let token ← take false false n
    if token.isOperator "|" then
      let second ← take false false n
      return pattern :: (← readPatterns second n)
    else
      putBack token
      return [pattern]

/-- Reads commands with `|` between them. -/
def readPipeline (seesKeywords skipsNewlines : Bool) : Nat → Reading Command
  | 0 => exhausted
  | n + 1 => do
    let token ← take seesKeywords skipsNewlines n
    if token.isKeyword "!" then
      return .negation (← readStages true false n)
    else
      putBack token
      readStages false false n

/-- Reads the commands of a pipeline without a negation. -/
def readStages (seesKeywords skipsNewlines : Bool) : Nat → Reading Command
  | 0 => exhausted
  | n + 1 => do
    let first ← readCommand seesKeywords skipsNewlines n
    let token ← take false false n
    if token.isOperator "|" then
      match ← readStages true true n with
      | .pipeline commands => return .pipeline (first :: commands)
      | command => return .pipeline [first, command]
    else
      putBack token
      return first

/-- Reads what follows the first pipelines of a chain of `&&` and `||`. -/
def readChain (first : Command) : Nat → Reading Command
  | 0 => exhausted
  | n + 1 => do
    let token ← take false false n
    if token.isOperator "&&" then
      let second ← readPipeline true true n
      readChain (.conjunction first second) n
    else if token.isOperator "||" then
      let second ← readPipeline true true n
      readChain (.disjunction first second) n
    else
      putBack token
      return first

/-- Reads a list of commands. -/
def readList (extent : Extent) : Nat → Reading (Option Command)
  | 0 => exhausted
  | n + 1 => readListRest extent none n

/-- Reads the rest of a list of commands, some of which are given. -/
def readListRest (extent : Extent) (before : Option Command) : Nat → Reading (Option Command)
  | 0 => exhausted
  | n + 1 => do
    let token ← take true (extent ≠ .line) n
    match token with
    | .newline =>
      readDocuments n
      return before
    | .endOfText =>
      readDocuments n
      putBack token
      return before
    | _ =>
      putBack token
      let mayEnd := match extent with
        | .line => false
        | .some => before.isSome
        | .any => true
      if mayEnd && token.endsList then return before
      else
        let first ← readPipeline true false n
        let command ← readChain first n
        let ending ← take false false n
        let command := if ending.isOperator "&" then .background command else command
        let all := match before with
          | none => command
          | some before => .sequence before command
        match ending with
        | .endOfText =>
          readDocuments n
          putBack ending
          return some all
        | .newline =>
          putBack ending
          readListRest extent (some all) n
        | .operator "&" | .operator ";" => readListRest extent (some all) n
        | _ =>
          if extent = .line then unexpected ending
          else
            putBack ending
            return some all

end

/-- Reads a line of commands, and more lines if a command goes on there.  There is none at the
end of the script. -/
def Source.readLine? (s : Source) : Except Complaint (Option Command × Source) := do
  let longest := s.aliases.foldl (fun total (_, text) => total + text.length + 1) 1
  let bound := 16 * (s.rest.length + 16) * longest
  let (token, s) ← (take true false bound).run s
  match token with
  | .endOfText => return (none, s)
  | _ =>
    let (command, s) ← (readList .line bound).run { s with ahead := some token }
    return (some (command.getD .nothing), s)

end FrontEnd.Shell
