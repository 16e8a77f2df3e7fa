/-
# Tokens

A token is a kind, a text and the span it was read from.  The text of a string or character
literal is what stands between its quotes; the span covers the quotes too.
-/
import FrontEnd.Span
import FrontEnd.Text.Quoted
import FrontEnd.Token.Kind

namespace FrontEnd

structure Token where
  kind : Kind
  text : String
  span : Span
  deriving DecidableEq, Repr, Inhabited

namespace Token

/-- The end of a text that is `offset` bytes long. -/
def eof (offset : Nat) : Token := ⟨.eof, "", ⟨offset, 0⟩⟩

/-- How messages name a token: its kind and its text, the end of the text by its kind only. -/
def display (t : Token) : String :=
  if t.kind = .eof then t.kind.name else t.kind.name ++ " '" ++ t.text ++ "'"

/-- The full form of a token: kind, quoted text and offset. -/
def inspect (t : Token) : String :=
  t.kind.name ++ "(" ++ Text.quoteText t.text ++ ")@" ++ toString t.span.offset

@[simp] theorem kind_eof (offset : Nat) : (eof offset).kind = .eof := rfl

end Token
end FrontEnd
