/-
# Token streams

A token stream holds the tokens of one text, its line table and the diagnostics recorded so
far.  Its tokens always end with the end of the text: `ofTokens` adds that token where it
is missing.  Tokens and lines never change; the list of diagnostics grows at its end.
-/
import FrontEnd.Diagnostic
import FrontEnd.LineTable

namespace FrontEnd

/-- Ends with a token of kind `eof`. -/
def EndsWithEof (tokens : List Token) : Prop := ∃ t ∈ tokens.getLast?, t.kind = .eof

/-- The tokens, with the end of the text added unless they end with one.  It is put where
the last token stops. -/
def terminate (tokens : List Token) : List Token :=
  match tokens.getLast? with
  | none => [Token.eof 0]
  | some last => if last.kind = .eof then tokens else tokens ++ [Token.eof last.span.stop]

theorem endsWithEof_terminate (tokens : List Token) : EndsWithEof (terminate tokens) := by
  unfold terminate EndsWithEof
  split
  · exact ⟨Token.eof 0, by simp, rfl⟩
  · rename_i last hl
    split
    · exact ⟨last, by simp [hl], by assumption⟩
    · exact ⟨Token.eof last.span.stop, by simp, rfl⟩

/-- Tokens that already end with the end of the text are left as they are. -/
theorem terminate_eq_self {tokens : List Token} (h : EndsWithEof tokens) :
    terminate tokens = tokens := by
  obtain ⟨last, hl, hk⟩ := h
  simp [terminate, Option.mem_def.mp hl, hk]

/-- The tokens of a text, which end with the end of the text, and what is known of it. -/
structure TokenStream where
  path : String
  tokens : List Token
  lines : LineTable
  diagnostics : List Diagnostic
  endsWithEof : EndsWithEof tokens

namespace TokenStream

/-- A stream of the given tokens (`new`). -/
def ofTokens (path : String) (tokens : List Token) (lines : LineTable)
    (diagnostics : List Diagnostic) : TokenStream :=
  ⟨path, terminate tokens, lines, diagnostics, endsWithEof_terminate tokens⟩

/-- Records one more diagnostic (`push`). -/
def push (s : TokenStream) (d : Diagnostic) : TokenStream :=
  { s with diagnostics := s.diagnostics ++ [d] }

/-- Records further diagnostics. -/
def append (s : TokenStream) (ds : List Diagnostic) : TokenStream :=
  { s with diagnostics := s.diagnostics ++ ds }

/-- Something was recorded (`has_errors`). -/
def hasErrors (s : TokenStream) : Bool := !s.diagnostics.isEmpty

/-- The line and column at which a span starts (`line_col`). -/
def lineCol (s : TokenStream) (span : Span) : Except Panic (Nat × Nat) :=
  s.lines.lineCol span.offset

/-- Where a span starts, for a reader: path, line and column. -/
def position (s : TokenStream) (span : Span) : Except Panic String := do
  let (line, column) ← s.lineCol span
  return s.path ++ ":" ++ toString line ++ ":" ++ toString column

/-- The line that says where a diagnostic is, if it has a place in the text. -/
def place (s : TokenStream) (d : Diagnostic) : Except Panic String :=
  match d.span with
  | some span => do return "  -> " ++ (← s.position span) ++ "\n"
  | none => .ok ""

/-- The lines that report one diagnostic (`format_diagnostic`). -/
def describe (s : TokenStream) (d : Diagnostic) : Except Panic String := do
  return "error: " ++ d.message ++ "\n" ++ (← s.place d) ++ "  in rule " ++ d.site.display ++ "\n"

/-- The report of all diagnostics, in the order in which they were recorded (`list_errors`). -/
def listErrors (s : TokenStream) : Except Panic String := do
  return String.join (← s.diagnostics.mapM s.describe)

end TokenStream
end FrontEnd
