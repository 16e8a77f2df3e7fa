/-
# Spans

A span is a range of bytes of a source text.  Offsets and lengths count bytes of the
UTF-8 form, never characters.
-/

namespace FrontEnd

/-- `length` bytes of a text, from `offset` on. -/
structure Span where
  offset : Nat
  length : Nat
  deriving DecidableEq, Repr, Inhabited

namespace Span

/-- The offset just after the last byte. -/
def stop (s : Span) : Nat := s.offset + s.length

/-- The empty span directly after `s`. -/
def after (s : Span) : Span := ⟨s.stop, 0⟩

def isEmpty (s : Span) : Bool := s.length == 0

/-- The smallest span that covers both. -/
def join (s t : Span) : Span :=
  let start := min s.offset t.offset
  ⟨start, max s.stop t.stop - start⟩

/-- Spans are ordered by where they start, then by length. -/
def order (s t : Span) : Ordering :=
  (compare s.offset t.offset).then (compare s.length t.length)

@[simp] theorem stop_after (s : Span) : s.after.stop = s.stop := rfl

end Span
end FrontEnd
