/-
# Blanks

The characters with the property White_Space, and removing them from the end of a text.
-/

namespace FrontEnd.Text

/-- The ranges of White_Space, both ends included. -/
def blankRanges : List (Nat × Nat) :=
  [(0x09, 0x0D), (0x20, 0x20), (0x85, 0x85), (0xA0, 0xA0), (0x1680, 0x1680), (0x2000, 0x200A),
   (0x2028, 0x2029), (0x202F, 0x202F), (0x205F, 0x205F), (0x3000, 0x3000)]

/-- Has the property White_Space. -/
def isBlank (c : Char) : Bool :=
  blankRanges.any fun (first, last) => first ≤ c.toNat && c.toNat ≤ last

/-- The characters without the blanks at their end. -/
def dropBlanksAtEnd (chars : List Char) : List Char :=
  (chars.reverse.dropWhile isBlank).reverse

/-- The text without the blanks at its end. -/
def trimEnd (text : String) : String := String.ofList (dropBlanksAtEnd text.toList)

@[simp] theorem dropBlanksAtEnd_nil : dropBlanksAtEnd [] = [] := rfl

theorem dropBlanksAtEnd_snoc {c : Char} (hc : isBlank c = true) (chars : List Char) :
    dropBlanksAtEnd (chars ++ [c]) = dropBlanksAtEnd chars := by
  simp [dropBlanksAtEnd, hc]

end FrontEnd.Text
