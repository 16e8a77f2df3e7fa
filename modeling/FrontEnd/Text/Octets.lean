/-
# Octets

What programs read and write is a sequence of octets.  An octet is given as the character
with its number, so that those below 128 can be written down as what they encode.

`decode` reads octets as UTF-8.  Octets that encode nothing are replaced: each longest start
of an encoding that is not gone on with, and each octet that starts none, becomes one
replacement character.
-/

namespace FrontEnd.Text

/-- Octets, each as the character with its number. -/
abbrev Octets := List Char

/-- The octets that encode a text. -/
def octets (text : String) : Octets := text.toUTF8.toList.map fun b => Char.ofNat b.toNat

/-- Stands for octets that encode nothing. -/
def replacement : Char := '\uFFFD'

/-- How an encoding of several octets goes on after its first octet: how many octets follow,
and the range of the first of them. -/
structure Continuation where
  count : Nat
  least : Nat
  greatest : Nat
  deriving DecidableEq, Repr

/-- How an encoding that starts with this octet goes on, if one can start with it.  The
ranges leave out overlong forms, surrogates and what lies above U+10FFFF. -/
def continuation? (lead : Nat) : Option Continuation :=
  if lead < 0xC2 then none
  else if lead ≤ 0xDF then some ⟨1, 0x80, 0xBF⟩
  else if lead = 0xE0 then some ⟨2, 0xA0, 0xBF⟩
  else if lead = 0xED then some ⟨2, 0x80, 0x9F⟩
  else if lead ≤ 0xEF then some ⟨2, 0x80, 0xBF⟩
  else if lead = 0xF0 then some ⟨3, 0x90, 0xBF⟩
  else if lead ≤ 0xF3 then some ⟨3, 0x80, 0xBF⟩
  else if lead = 0xF4 then some ⟨3, 0x80, 0x8F⟩
  else none

/-- The octets that go on with an encoding. -/
def Continuation.read (k : Continuation) : Octets → Octets
  | [] => []
  | c :: rest =>
    if k.least ≤ c.toNat ∧ c.toNat ≤ k.greatest then
      c :: (rest.take (k.count - 1)).takeWhile fun d => 0x80 ≤ d.toNat && d.toNat ≤ 0xBF
    else []

/-- The number that an encoding of several octets stands for. -/
def codePoint (lead : Nat) (following : Octets) : Nat :=
  let bits := if following.length = 1 then 0x1F else if following.length = 2 then 0x0F else 0x07
  following.foldl (fun n c => n * 64 + c.toNat % 64) (lead % (bits + 1))

/-- The first character that is decoded, and how many octets after the first belong to it. -/
def decodeFirst (lead : Char) (rest : Octets) : Char × Nat :=
  if lead.toNat < 0x80 then (lead, 0)
  else match continuation? lead.toNat with
    | none => (replacement, 0)
    | some k =>
      let following := k.read rest
      if following.length = k.count then
        (Char.ofNat (codePoint lead.toNat following), following.length)
      else (replacement, following.length)

/-- The characters that the octets encode, with replacements where they encode nothing. -/
def decodeChars : Octets → List Char
  | [] => []
  | lead :: rest =>
    let (c, count) := decodeFirst lead rest
    c :: decodeChars (rest.drop count)
termination_by octets => octets.length
decreasing_by simp only [List.length_cons, List.length_drop]; omega

/-- The text that the octets encode, with replacements where they encode nothing. -/
def decode (octets : Octets) : String := String.ofList (decodeChars octets)

end FrontEnd.Text
