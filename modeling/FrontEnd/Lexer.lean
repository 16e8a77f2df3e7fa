/-
# Lexing

Lexing turns the segments of a text into tokens and diagnostics, and notes where lines
start.  A fault never stops it.  A `Lexer` is a lexing under way: it can be asked for one
token at a time (`next`) or for everything that is left (`finish`, which is
`into_token_stream`).  What it reads was cut into segments before (`Segment.first?`), which is what
`parse_insignificant` and `parse_token` do at each place.

A lexing writes in a log as it goes: each fault, and each token that it hands out if its options
say so.  Neither makes a difference to the stream (`lexWith_fst`).
-/
import FrontEnd.Log
import FrontEnd.Text.Bytes

namespace FrontEnd

namespace Segment

/-- The token that a segment at `offset` writes, if it is a lexeme (`next_token`). -/
def token? (s : Segment) (offset : Nat) : Option Token :=
  match s.content with
  | .lexeme kind =>
    let text := Lexeme.text ⟨kind, s.chars, []⟩
    some ⟨kind, String.ofList text, ⟨offset, Text.byteLength s.chars⟩⟩
  | _ => none

/-- The diagnostic that a segment at `offset` gives, if it is a fault (`recover`). -/
def diagnostic? (s : Segment) (offset : Nat) : Option Diagnostic :=
  match s.content with
  | .fault fault => some (.ofFault fault ⟨offset, Text.byteLength s.chars⟩)
  | _ => none

/-- The record that a segment at `offset` leaves, if it is a fault (`recover`). -/
def record? (s : Segment) (offset : Nat) : Option Record :=
  match s.content with
  | .fault fault => some (.fault fault offset)
  | _ => none

end Segment

/-- Where the lines start that begin inside characters at `offset`: just after each line feed
(`advance`). -/
def lineStarts (offset : Nat) : List Char → List Nat
  | [] => []
  | c :: rest =>
    let next := offset + c.utf8Size
    if c = '\n' then next :: lineStarts next rest else lineStarts next rest

/-- What a lexing is asked for beside tokens (`LexerOptions`). -/
structure LexerOptions where
  /-- Write every token in the log. -/
  traceTokens : Bool := false
  deriving DecidableEq, Repr

/-- A lexing under way. -/
structure Lexer where
  path : String
  /-- The segments that have not been looked at. -/
  pending : List Segment
  /-- Where the first of them starts. -/
  offset : Nat
  lines : LineTable
  diagnostics : List Diagnostic
  /-- The end of the text has been handed out. -/
  finished : Bool
  options : LexerOptions
  /-- What has been written in the log. -/
  log : List Record

namespace Lexer

/-- The lexing of a whole text, with a log to go on with (`with_options`). -/
def withOptions (options : LexerOptions) (log : List Record) (path source : String) : Lexer :=
  ⟨path, segments source.toList, 0, .empty, [], false, options, log⟩

/-- The lexing of a whole text (`new`). -/
def start (path source : String) : Lexer := withOptions {} [] path source

/-- Passes over one segment: notes its line starts and its diagnostic (`advance` and
`recover`). -/
def pass (l : Lexer) (s : Segment) (pending : List Segment) : Lexer :=
  { l with
    pending
    offset := l.offset + Text.byteLength s.chars
    lines := l.lines.pushAll (lineStarts l.offset s.chars)
    diagnostics := l.diagnostics ++ (s.diagnostic? l.offset).toList
    log := l.log ++ (s.record? l.offset).toList }

/-- The lexing after a token, if there is one, is handed out. -/
def handOut (l : Lexer) (t : Option Token) : Lexer :=
  { l with
    log := l.log ++
      if l.options.traceTokens then (t.map fun t => .token l.path t).toList else [] }

@[simp] theorem handOut_none (l : Lexer) : l.handOut none = l := by simp [handOut]

/-- The next token among the segments `pending`, and the lexing after it (`next_token`). -/
def seek (l : Lexer) : List Segment → Token × Lexer
  | [] => (.eof l.offset, { l with pending := [], finished := true })
  | s :: rest =>
    let after := l.pass s rest
    match s.token? l.offset with
    | some token => (token, after)
    | none => after.seek rest

/-- The next token (`next`).  The end of the text is handed out once, and then nothing. -/
def next (l : Lexer) : Option Token × Lexer :=
  if l.finished then (none, l)
  else
    let (token, after) := l.seek l.pending
    (some token, after.handOut (some token))

/-- All tokens among the segments `pending` and the end of the text, and the lexing after
them. -/
def drain (l : Lexer) : List Segment → List Token × Lexer
  | [] =>
    ([.eof l.offset],
      { l with pending := [], finished := true }.handOut (some (.eof l.offset)))
  | s :: rest =>
    let (tokens, after) := ((l.pass s rest).handOut (s.token? l.offset)).drain rest
    ((s.token? l.offset).toList ++ tokens, after)

/-- All tokens that are left. -/
def rest (l : Lexer) : List Token × Lexer :=
  if l.finished then ([], l) else l.drain l.pending

/-- Lexes what is left, and answers the stream (`into_token_stream`) and the log.  The stream has the line table and
the diagnostics of the whole text. -/
def finishLogged (l : Lexer) : TokenStream × List Record :=
  let (tokens, after) := l.rest
  (.ofTokens after.path tokens after.lines after.diagnostics, after.log)

/-- Lexes what is left. -/
def finish (l : Lexer) : TokenStream := l.finishLogged.1

end Lexer

/-- The token stream of a text (`lex`).  The path is a label. -/
def lex (path source : String) : TokenStream := (Lexer.start path source).finish

/-- The token stream of a text and what is in the log after it (`lex_with_options`). -/
def lexWith (options : LexerOptions) (log : List Record) (path source : String) :
    TokenStream × List Record :=
  (Lexer.withOptions options log path source).finishLogged

/-! ## The stream does not depend on the log -/

namespace Lexer

/-- The lexing without its log and without what is asked for it. -/
def unlogged (l : Lexer) : Lexer := { l with options := {}, log := [] }

variable {l l' : Lexer}

theorem unlogged_pass (h : l.unlogged = l'.unlogged) (s : Segment) (rest : List Segment) :
    (l.pass s rest).unlogged = (l'.pass s rest).unlogged := by
  show (l.unlogged.pass s rest).unlogged = (l'.unlogged.pass s rest).unlogged
  rw [h]

/-- **Neither the log nor what is asked for it tells the next tokens.** -/
theorem drain_congr : ∀ (segs : List Segment) {l l' : Lexer}, l.unlogged = l'.unlogged →
    (l.drain segs).1 = (l'.drain segs).1 ∧
      (l.drain segs).2.unlogged = (l'.drain segs).2.unlogged
  | [], l, l', h =>
    ⟨(congrArg (fun k : Lexer => [Token.eof k.offset]) h :),
      (congrArg (fun k : Lexer => { k with pending := [], finished := true }) h :)⟩
  | s :: rest, l, l', h => by
    have hoffset : l.offset = l'.offset := (congrArg Lexer.offset h :)
    have hpass : ((l.pass s rest).handOut (s.token? l.offset)).unlogged =
        ((l'.pass s rest).handOut (s.token? l'.offset)).unlogged := unlogged_pass h s rest
    obtain ⟨htokens, hafter⟩ := drain_congr rest hpass
    refine ⟨?_, hafter⟩
    show (s.token? l.offset).toList ++ _ = (s.token? l'.offset).toList ++ _
    rw [htokens, hoffset]

theorem finish_congr (h : l.unlogged = l'.unlogged) : l.finish = l'.finish := by
  have hfinished : l.finished = l'.finished := (congrArg Lexer.finished h :)
  have hpending : l.pending = l'.pending := (congrArg Lexer.pending h :)
  have hrest : l.rest.1 = l'.rest.1 ∧ l.rest.2.unlogged = l'.rest.2.unlogged := by
    unfold rest
    rw [← hfinished, ← hpending]
    split
    · exact ⟨rfl, h⟩
    · exact drain_congr l.pending h
  show TokenStream.ofTokens l.rest.2.unlogged.path l.rest.1 l.rest.2.unlogged.lines
    l.rest.2.unlogged.diagnostics = _
  rw [hrest.1, hrest.2]
  rfl

end Lexer

/-- **The stream of a text does not depend on what is logged.** -/
theorem lexWith_fst (options : LexerOptions) (log : List Record) (path source : String) :
    (lexWith options log path source).1 = lex path source := by
  have hsame : (Lexer.withOptions options log path source).unlogged =
      (Lexer.start path source).unlogged := rfl
  exact Lexer.finish_congr hsame

end FrontEnd
