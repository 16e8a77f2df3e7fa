/-
# Formats

What `printf` writes.  A format is text with directives; each directive takes a word and
shows it.  The format is used again until all words are taken.

* `unescape` replaces the escapes of a text, as `echo` does;
* `Directive.showInteger` and `Directive.showFraction` show numbers.
-/
import FrontEnd.Host.Shell.Machine

namespace FrontEnd.Shell

open Text (Octets octets)

/-! ## Escapes -/

/-- The octet with these octal digits. -/
def ofOctal (digits : Octets) : Char := Char.ofNat (ofDigits 8 digits % 256)

/-- What stands after a backslash, and what follows.  A backslash before anything else stays,
and so does what comes after it. -/
def readEscape : Octets → Char × Octets
  | [] => ('\\', [])
  | c :: rest =>
    match c with
    | '\\' => ('\\', rest)
    | 'a' => ('\x07', rest)
    | 'b' => ('\x08', rest)
    | 'e' => ('\x1b', rest)
    | 'f' => ('\x0c', rest)
    | 'n' => ('\n', rest)
    | 'r' => ('\r', rest)
    | 't' => ('\t', rest)
    | 'v' => ('\x0b', rest)
    | _ =>
      let digits := ((c :: rest).takeWhile isOctalDigit).take 3
      if digits.isEmpty then ('\\', c :: rest)
      else (ofOctal digits, (c :: rest).drop digits.length)

/-- Replaces the escapes of a text.  Octal digits may follow a zero, and `\c` ends the output:
then the second answer is true.  `bound` is the number of characters at most. -/
def unescape : Nat → Octets → Octets × Bool
  | 0, _ => ([], false)
  | _, [] => ([], false)
  | bound + 1, '\\' :: rest =>
    match rest with
    | 'c' :: _ => ([], true)
    | _ =>
      let digits := match rest with
        | '0' :: d :: more => if isOctalDigit d then d :: more else rest
        | _ => rest
      let (c, after) := readEscape digits
      let (text, stops) := unescape bound after
      (c :: text, stops)
  | bound + 1, c :: rest =>
    let (text, stops) := unescape bound rest
    (c :: text, stops)

/-! ## Directives -/

/-- How a word is shown. -/
structure Directive where
  flags : List Char
  width : Nat
  precision : Option Nat
  conversion : Char
  deriving DecidableEq, Repr

namespace Directive

def has (d : Directive) (flag : Char) : Bool := d.flags.contains flag

/-- Fills a text up with blanks. -/
def pad (d : Directive) (text : Octets) : Octets :=
  let blanks := List.replicate (d.width - text.length) ' '
  if d.has '-' then text ++ blanks else blanks ++ text

/-- Fills a number up, with zeros after its sign if that is asked for. -/
def padNumber (d : Directive) (zeros : Bool) (sign digits : Octets) : Octets :=
  if zeros && d.has '0' && !d.has '-' then
    sign ++ List.replicate (d.width - (sign.length + digits.length)) '0' ++ digits
  else d.pad (sign ++ digits)

/-- The sign of a number. -/
def sign (d : Directive) (isNegative : Bool) : Octets :=
  if isNegative then ['-'] else if d.has '+' then ['+'] else if d.has ' ' then [' '] else []

/-- Shows a text, as much of it as the precision allows. -/
def showText (d : Directive) (text : Octets) : Octets :=
  d.pad (match d.precision with
    | some n => text.take n
    | none => text)

/-- Adds zeros up to the precision. -/
def precise (d : Directive) (digits : Octets) : Octets :=
  match d.precision with
  | some n =>
    if n = 0 ∧ digits = ['0'] then [] else List.replicate (n - digits.length) '0' ++ digits
  | none => digits

/-- Shows a number with a sign. -/
def showInteger (d : Directive) (value : Int) : Octets :=
  let digits := d.precise (octets (toString value.natAbs))
  d.padNumber d.precision.isNone (d.sign (decide (value < 0))) digits

/-- Shows a number without a sign, in octal, decimal or hexadecimal digits. -/
def showNatural (d : Directive) (value : Nat) : Octets :=
  let base := if d.conversion = 'o' then 8 else if d.conversion = 'u' then 10 else 16
  let digits := Nat.toDigits base value
  let digits := if d.conversion = 'X' then digits.map Char.toUpper else digits
  let shown := d.precise digits
  let isHexadecimal := base = 16
  if d.has '#' && d.conversion = 'o' && shown.head? ≠ some '0' then
    d.padNumber d.precision.isNone [] ('0' :: shown)
  else
    let start := if d.has '#' && isHexadecimal && value != 0 then ['0', d.conversion] else []
    d.padNumber d.precision.isNone start shown

end Directive

/-! ## Fractions -/

/-- The whole number nearest to a quotient; of two the even one. -/
def roundQuotient (numerator denominator : Nat) : Nat :=
  let q := numerator / denominator
  let r := numerator % denominator
  if 2 * r < denominator ∨ 2 * r = denominator ∧ q % 2 = 0 then q else q + 1

/-- The mantissa of the least number that has all its digits. -/
def leastMantissa : Nat := 0x10000000000000

/-- The size of a floating-point number if it is finite: a whole number in units of a power
of two. -/
def binary? (value : Float) : Option (Nat × Int) :=
  let bits := value.toBits.toNat
  let exponent : Nat := bits / leastMantissa % 0x800
  let fraction : Nat := bits % leastMantissa
  if exponent = 2047 then none
  else if exponent = 0 then some (fraction, -1074)
  else some (fraction + leastMantissa, (exponent : Int) - 1075)

/-- The size of a floating-point number as a quotient, if it is finite. -/
def quotient? (value : Float) : Option (Nat × Nat) :=
  (binary? value).map fun (mantissa, power) =>
    if 0 ≤ power then (mantissa <<< power.toNat, 1) else (mantissa, 1 <<< (-power).toNat)

/-- Digits with a point before the last `places`. -/
def withPoint (places : Nat) (keepsPoint : Bool) (value : Nat) : Octets :=
  let digits := octets (toString value)
  let digits := List.replicate (places + 1 - digits.length) '0' ++ digits
  let whole := digits.take (digits.length - places)
  if places = 0 && !keepsPoint then whole else whole ++ '.' :: digits.drop whole.length

/-- A power of ten. -/
def tenTo (n : Nat) : Nat := Nat.pow 10 n

/-- The power of ten that a quotient is at least, searched from one that is not less. -/
def decimalExponent (numerator denominator : Nat) : Nat → Int → Int
  | 0, e => e
  | bound + 1, e =>
    let isAtLeast : Bool :=
      if 0 ≤ e then decide (denominator * tenTo e.toNat ≤ numerator)
      else decide (denominator ≤ numerator * tenTo (-e).toNat)
    if isAtLeast then e else decimalExponent numerator denominator bound (e - 1)

/-- The quotient in units of a power of ten. -/
def inUnits (numerator denominator : Nat) (power : Int) : Nat :=
  if 0 ≤ power then roundQuotient numerator (denominator * tenTo power.toNat)
  else roundQuotient (numerator * tenTo (-power).toNat) denominator

/-- The digits of a quotient, as one number, and its exponent, with so many places after the
first digit. -/
def scientific (numerator denominator places : Nat) : Nat × Int :=
  if numerator = 0 then (0, 0)
  else
    let e := decimalExponent numerator denominator 640 310
    let digits := inUnits numerator denominator (e - places)
    if tenTo (places + 1) ≤ digits then (digits / 10, e + 1) else (digits, e)

/-- An exponent of at least two digits with its sign. -/
def showExponent (letter : Char) (e : Int) : Octets :=
  let digits := octets (toString e.natAbs)
  letter :: (if e < 0 then '-' else '+') ::
    (List.replicate (2 - digits.length) '0' ++ digits)

/-- Without the zeros at the end of a fraction. -/
def trimZeros (text : Octets) : Octets :=
  if text.contains '.' then
    let kept := (text.reverse.dropWhile (· == '0')).reverse
    if kept.getLast? = some '.' then kept.dropLast else kept
  else text

/-- The digits and the exponent of a number for `%a`: one digit before the point, and after it
as many as the precision says or as are needed. -/
def hexadecimal (precision : Option Nat) (keepsPoint : Bool) (mantissa : Nat) (power : Int) :
    Octets :=
  let digits (places value : Nat) : Octets :=
    let shown := Nat.toDigits 16 value
    List.replicate (places - shown.length) '0' ++ shown
  let fraction := digits 13 (mantissa % leastMantissa)
  let (whole, fraction) := match precision with
    | none => (mantissa / leastMantissa, (fraction.reverse.dropWhile (· == '0')).reverse)
    | some places =>
      if 13 ≤ places then (mantissa / leastMantissa, fraction ++ List.replicate (places - 13) '0')
      else
        let unit : Nat := 1 <<< (4 * places)
        let rounded := roundQuotient mantissa (1 <<< (4 * (13 - places)))
        (rounded / unit, if places = 0 then [] else digits places (rounded % unit))
  let e : Int := if mantissa = 0 then 0 else power + 52
  octets (toString whole) ++ (if fraction.isEmpty && !keepsPoint then [] else '.' :: fraction) ++
    'p' :: (if e < 0 then '-' else '+') :: octets (toString e.natAbs)

/-- Shows a floating-point number with `%a`, `%e`, `%f` or `%g`. -/
def Directive.showFraction (d : Directive) (value : Float) : Octets :=
  let isNegative := 0x8000000000000000 ≤ value.toBits.toNat
  let isUpper := d.conversion.isUpper
  let letter := if isUpper then 'E' else 'e'
  let keepsPoint := d.has '#'
  match quotient? value with
  | none =>
    let name := octets (if value.isNaN then "nan" else "inf")
    d.padNumber false (d.sign isNegative) (if isUpper then name.map Char.toUpper else name)
  | some (n, m) =>
    let places := d.precision.getD 6
    let start := if d.conversion.toLower = 'a' then octets "0x" else []
    let body : Octets :=
      match d.conversion.toLower with
      | 'a' =>
        let (mantissa, power) := (binary? value).getD (0, 0)
        hexadecimal d.precision keepsPoint mantissa power
      | 'f' => withPoint places keepsPoint (inUnits n m (-places))
      | 'e' =>
        let (digits, e) := scientific n m places
        withPoint places keepsPoint digits ++ showExponent letter e
      | _ =>
        let significant := max places 1
        let (digits, e) := scientific n m (significant - 1)
        let trim (text : Octets) : Octets := if keepsPoint then text else trimZeros text
        if e < -4 ∨ (significant : Int) ≤ e then
          trim (withPoint (significant - 1) keepsPoint digits) ++ showExponent letter e
        else
          let places := ((significant : Int) - 1 - e).toNat
          trim (withPoint places keepsPoint (inUnits n m (-places)))
    let upper (text : Octets) : Octets := if isUpper then text.map Char.toUpper else text
    d.padNumber true (d.sign isNegative ++ upper start) (upper body)

/-! ## Words as numbers -/

/-- A number at the start of a text, and what follows it. -/
structure Numeral (α : Type) where
  value : α
  rest : Octets
  isInRange : Bool

/-- How many numbers of 64 bits there are. -/
def wordSize : Nat := 0x10000000000000000

/-- The whole number at the start of a word. -/
def readInteger (signed : Bool) (word : Octets) : Option (Numeral Int) :=
  let (isNegative, text) := splitSign (word.dropWhile isSpace)
  (readNatural? text).map fun (magnitude, rest) =>
    if signed then
      let (value, isInRange) := saturate isNegative magnitude
      ⟨value, rest, isInRange⟩
    else if wordSize ≤ magnitude then ⟨wordSize - 1, rest, false⟩
    else ⟨if isNegative then (wordSize - magnitude) % wordSize else magnitude, rest, true⟩

/-- The least number that has all its digits. -/
def leastNormal : Float := Float.ofBits 0x0010000000000000

/-- The fraction at the start of a text without a sign. -/
def readMagnitude? (text : Octets) : Option (Numeral Float) :=
  match text with
  | '0' :: x :: d :: rest =>
    let isDigit := isHexDigit d || d = '.' && (rest.head?.map isHexDigit).getD false
    if (x == 'x' || x == 'X') && isDigit then
      some (hexadecimal (d :: rest))
    else decimal text
  | _ =>
    let lower := String.ofList (text.map Char.toLower)
    if lower.startsWith "infinity" then some ⟨1.0 / 0.0, text.drop 8, true⟩
    else if lower.startsWith "inf" then some ⟨1.0 / 0.0, text.drop 3, true⟩
    else if lower.startsWith "nan" then some ⟨0.0 / 0.0, text.drop 3, true⟩
    else decimal text
where
  /-- An exponent behind one of two letters, if there is one, and what follows it. -/
  exponent? (letters : List Char) (text : Octets) : Option (Int × Octets) :=
    match text with
    | e :: more =>
      let (isNegative, digits) := splitSign more
      if letters.contains e then
        (readDecimal? digits).map fun (n, rest) => (if isNegative then -(n : Int) else n, rest)
      else none
    | [] => none
  /-- Hexadecimal digits, perhaps a point and more of them, perhaps a power of two. -/
  hexadecimal (text : Octets) : Numeral Float :=
    let whole := text.takeWhile isHexDigit
    let after := text.drop whole.length
    let (part, after) := match after with
      | '.' :: more => (more.takeWhile isHexDigit, more.dropWhile isHexDigit)
      | _ => ([], after)
    let (exponent, rest) := (exponent? ['p', 'P'] after).getD (0, after)
    let value := (Float.ofNat (ofDigits 16 (whole ++ part))).scaleB (exponent - 4 * part.length)
    ⟨value, rest, !value.isInf⟩
  /-- Digits, perhaps a point and more digits, perhaps an exponent. -/
  decimal (text : Octets) : Option (Numeral Float) :=
    let whole := text.takeWhile Char.isDigit
    let after := text.drop whole.length
    let (part, after) := match after with
      | '.' :: more =>
        let part := more.takeWhile Char.isDigit
        if whole.isEmpty && part.isEmpty then ([], after) else (part, more.drop part.length)
      | _ => ([], after)
    if whole.isEmpty && part.isEmpty then none
    else
      let (exponent, rest) := (exponent? ['e', 'E'] after).getD (0, after)
      let digits := ofDigits 10 (whole ++ part)
      let scale := exponent - part.length
      let value := Float.ofScientific digits (decide (scale < 0)) (min scale.natAbs 10000)
      let isTooSmall := digits ≠ 0 && value < leastNormal
      some ⟨value, rest, !value.isInf && !isTooSmall⟩

def readFraction (word : Octets) : Option (Numeral Float) :=
  let (isNegative, text) := splitSign (word.dropWhile isSpace)
  (readMagnitude? text).map fun n => { n with value := if isNegative then -n.value else n.value }

/-! ## Printing -/

/-- What is printed, the last character first, and the words that are left. -/
structure Printing where
  text : Octets := []
  words : List Octets
  /-- A word was taken. -/
  hasTaken : Bool := false
  status : Nat := 0
  deriving Repr

abbrev Print := StateT Printing Action

namespace Print

def emit (text : Octets) : Print Unit :=
  modify fun p => { p with text := text.reverse ++ p.text }

/-- Takes a word, if there is one. -/
def next? : Print (Option Octets) := do
  let p ← get
  match p.words with
  | [] => return none
  | word :: words =>
    set { p with words, hasTaken := true }
    return some word

/-- Complains after what was printed so far. -/
def fault {α : Type} (message : Octets) : Print α := do
  discard <| StateT.lift (Action.write 1 (← get).text.reverse)
  StateT.lift (Action.fail message)

/-- Complains and goes on. -/
def warn (word : Octets) (message : String) : Print Unit := do
  StateT.lift (Action.warn (word ++ octets (": " ++ message)))
  modify fun p => { p with status := 1 }

/-- Takes a word as a number.  A quote in front asks for the number of a character. -/
def nextNumber {α : Type} (zero : α) (ofChar : Nat → α)
    (read : Octets → Option (Numeral α)) : Print α := do
  match ← next? with
  | none => return zero
  | some [] => return zero
  | some (c :: word) =>
    if c = '"' ∨ c = '\'' then return ofChar ((word.head?.map Char.toNat).getD 0)
    else match read (c :: word) with
      | none =>
        warn (c :: word) "expected numeric value"
        return zero
      | some n =>
        if !n.rest.isEmpty then warn (c :: word) "not completely converted"
        else if !n.isInRange then warn (c :: word) "Numerical result out of range"
        return n.value

def nextInteger (signed : Bool) : Print Int :=
  nextNumber 0 (fun n => n) (readInteger signed)

/-- Shows the next word by a directive; answers that the output ends there. -/
def convert (d : Directive) (shown : Octets) : Print Bool := do
  match d.conversion with
  | 'b' =>
    let word := (← next?).getD []
    let (text, stops) := unescape (word.length + 1) word
    emit (d.showText text)
    return stops
  | 'c' =>
    let word := (← next?).getD []
    emit (d.pad [word.head?.getD '\x00'])
    return false
  | 's' =>
    emit (d.showText ((← next?).getD []))
    return false
  | 'd' | 'i' =>
    emit (d.showInteger (← nextInteger true))
    return false
  | 'o' | 'u' | 'x' | 'X' =>
    emit (d.showNatural (← nextInteger false).toNat)
    return false
  | 'a' | 'A' | 'e' | 'E' | 'f' | 'F' | 'g' | 'G' =>
    emit (d.showFraction (← nextNumber 0.0 Float.ofNat readFraction))
    return false
  | _ => fault (shown ++ octets ": invalid directive")

/-- A width or a precision: digits, or a word that a star asks for; stars among the digits mean
nothing.  Also the characters that were read. -/
def readSize (format : Octets) : Print (Option Int × Octets × Octets) := do
  match format with
  | '*' :: rest => return (some (← nextInteger true), ['*'], rest)
  | _ =>
    let shown := format.takeWhile fun c => c.isDigit || c == '*'
    let digits := shown.takeWhile Char.isDigit
    return (if digits.isEmpty then none else some (ofDigits 10 digits), shown,
      format.drop shown.length)

/-- Goes through the format once; answers that the output ends.  `bound` is the number of
characters at most. -/
def once : Nat → Octets → Print Bool
  | 0, _ => return false
  | _, [] => return false
  | bound + 1, '\\' :: rest => do
    let (c, after) := readEscape rest
    emit [c]
    once bound after
  | bound + 1, '%' :: '%' :: rest => do
    emit ['%']
    once bound rest
  | bound + 1, '%' :: rest => do
    let flags := rest.takeWhile fun c => c ∈ ['#', '-', '+', ' ', '0']
    let (width, shownWidth, rest) ← readSize (rest.drop flags.length)
    let (precision, shownPrecision, rest) ← match rest with
      | '.' :: rest => do
        let (precision, shown, rest) ← readSize rest
        pure (some (precision.getD 0), '.' :: shown, rest)
      | _ => pure (none, [], rest)
    match rest with
    | [] => fault (octets "missing format character")
    | conversion :: rest =>
      let width := width.getD 0
      let d : Directive :=
        { flags := if width < 0 then '-' :: flags else flags
          width := width.natAbs
          precision := precision.bind fun p => if p < 0 then none else some p.toNat
          conversion }
      if ← convert d ('%' :: flags ++ shownWidth ++ shownPrecision ++ [conversion]) then
        return true
      else once bound rest
  | bound + 1, c :: rest => do
    let run := (c :: rest).takeWhile fun d => d != '\\' && d != '%'
    emit run
    once bound ((c :: rest).drop run.length)

/-- Goes through the format until no words are left. -/
def all (format : Octets) : Nat → Print Unit
  | 0 => return
  | bound + 1 => do
    modify fun p => { p with hasTaken := false }
    if ← once (format.length + 1) format then return
    let p ← get
    if p.hasTaken && !p.words.isEmpty then all format bound

end Print

/-- What `printf` writes, and its status. -/
def printf (format : Octets) (words : List Octets) : Action (Octets × Nat) := do
  let (_, p) ← (Print.all format (words.length + 1)).run { words }
  return (p.text.reverse, p.status)

end FrontEnd.Shell
