import ClauseMatch.Literal.Error

/-!
# Numbers in literals

A number is read in two steps. Scanning splits off the longest run of characters that can belong
to it and keeps that spelling in parts; the parts then denote an integer in the range of 64 bits,
a double, or nothing. Underscores are allowed among the digits and mean nothing.
-/

namespace ClauseMatch.Literal

/-- A decimal digit or an underscore. -/
def isDigitOrGap (c : Char) : Bool := c.isDigit || c == '_'

/-- A hexadecimal digit or an underscore. -/
def isHexDigitOrGap (c : Char) : Bool := isHexDigit c || c == '_'

/-- The digits of a spelling without its underscores. -/
def withoutGaps (digits : List Char) : List Char := digits.filter (· ≠ '_')

/-- The exponent of a number as written. -/
structure ExponentSpelling where
  marker : Char
  sign : Option Char
  digits : List Char

/-- The part of a number after its sign, as written. -/
inductive NumberBody where
  | hexadecimal (digits : List Char)
  | decimal (whole : List Char) (fraction : Option (List Char))
      (exponent : Option ExponentSpelling)

/-- A number as written. -/
structure NumberSpelling where
  negative : Bool
  body : NumberBody

/-- The characters of an exponent. -/
def ExponentSpelling.chars (e : ExponentSpelling) : List Char :=
  e.marker :: (e.sign.toList ++ e.digits)

/-- The characters of a number after its sign. -/
def NumberBody.chars : NumberBody → List Char
  | .hexadecimal digits => '0' :: 'x' :: digits
  | .decimal whole fraction exponent =>
    whole ++ (fraction.elim [] fun digits => '.' :: digits) ++ exponent.elim [] (·.chars)

/-- The characters of a number. -/
def NumberSpelling.chars (n : NumberSpelling) : List Char :=
  if n.negative then '-' :: n.body.chars else n.body.chars

/-- Splits off a sign. -/
def scanSign : List Char → Option Char × List Char
  | '+' :: rest => (some '+', rest)
  | '-' :: rest => (some '-', rest)
  | rest => (none, rest)

/-- Splits off a fraction: a point with a digit right after it begins one. -/
def scanFraction : List Char → Option (List Char) × List Char
  | '.' :: c :: rest =>
    if c.isDigit then
      (some ((c :: rest).takeWhile isDigitOrGap), (c :: rest).dropWhile isDigitOrGap)
    else (none, '.' :: c :: rest)
  | rest => (none, rest)

/-- Splits off an exponent, which may turn out to have no digits. -/
def scanExponent : List Char → Option ExponentSpelling × List Char
  | [] => (none, [])
  | c :: rest =>
    if c = 'e' ∨ c = 'E' then
      let (sign, rest) := scanSign rest
      (some ⟨c, sign, rest.takeWhile Char.isDigit⟩, rest.dropWhile Char.isDigit)
    else (none, c :: rest)

/-- Splits off the part of a number after its sign. -/
def scanBody : List Char → NumberBody × List Char
  | '0' :: 'x' :: rest =>
    (.hexadecimal (rest.takeWhile isHexDigitOrGap), rest.dropWhile isHexDigitOrGap)
  | source =>
    let (fraction, rest) := scanFraction (source.dropWhile isDigitOrGap)
    let (exponent, rest) := scanExponent rest
    (.decimal (source.takeWhile isDigitOrGap) fraction exponent, rest)

/-- Splits off a number. -/
def scanNumber : List Char → NumberSpelling × List Char
  | '-' :: rest =>
    let (body, rest) := scanBody rest
    (⟨true, body⟩, rest)
  | source =>
    let (body, rest) := scanBody source
    (⟨false, body⟩, rest)

/-- What a number denotes. -/
inductive Number where
  | integer (n : Int64)
  | float (x : Binary64)

/-- The integer with the given sign and magnitude, if 64 bits hold it. -/
def int64OfMagnitude? (negative : Bool) (magnitude : Nat) : Option Int64 :=
  if negative then
    if magnitude ≤ 1 <<< 63 then some (Int64.ofInt (-(magnitude : Int))) else none
  else if magnitude < 1 <<< 63 then some (Int64.ofInt magnitude) else none

/-- What a spelling denotes. A hexadecimal magnitude is below `2 ^ 63` under either sign; a
fraction or an exponent makes the number a double. -/
def NumberSpelling.denotation? (n : NumberSpelling) : Option Number :=
  match n.body with
  | .hexadecimal digits =>
    let digits := withoutGaps digits
    let magnitude := natOfDigits 16 digits
    if digits.isEmpty ∨ 1 <<< 63 ≤ magnitude then none
    else (int64OfMagnitude? n.negative magnitude).map .integer
  | .decimal whole none none =>
    let digits := withoutGaps whole
    if digits.isEmpty then none
    else (int64OfMagnitude? n.negative (natOfDigits 10 digits)).map .integer
  | .decimal whole fraction exponent =>
    let numeral : DecimalNumeral :=
      { negative := n.negative
        whole := withoutGaps whole
        fraction := withoutGaps (fraction.getD [])
        exponent := exponent.map fun e => (e.sign == some '-', e.digits) }
    numeral.toBinary64?.map .float

/-- Reads a number. The source must begin with a minus sign or a digit. -/
def readNumber (source : List Char) : Except Failure (Number × List Char) :=
  let (spelling, rest) := scanNumber source
  match spelling.denotation? with
  | some number => .ok (number, rest)
  | none => .error ⟨.invalidNumber (String.ofList spelling.chars), source⟩

/-! ## Scanning consumes the source -/

theorem scanSign_length_le (source : List Char) :
    (scanSign source).2.length ≤ source.length := by
  unfold scanSign
  split <;> simp

theorem scanFraction_length_le (source : List Char) :
    (scanFraction source).2.length ≤ source.length := by
  unfold scanFraction
  split
  · rename_i c rest
    have := length_dropWhile_le isDigitOrGap (c :: rest)
    split
    · simp only [List.length_cons] at this ⊢
      omega
    · simp
  · simp

theorem scanExponent_length_le (source : List Char) :
    (scanExponent source).2.length ≤ source.length := by
  unfold scanExponent
  split
  · simp
  · rename_i c rest
    have h1 := scanSign_length_le rest
    have h2 := length_dropWhile_le Char.isDigit (scanSign rest).2
    split
    · simp only [List.length_cons]
      omega
    · simp

theorem scanBody_length_le (source : List Char) :
    (scanBody source).2.length ≤ source.length := by
  unfold scanBody
  split
  · rename_i rest
    have := length_dropWhile_le isHexDigitOrGap rest
    simp only [List.length_cons]
    omega
  · have h1 := length_dropWhile_le isDigitOrGap source
    have h2 := scanFraction_length_le (source.dropWhile isDigitOrGap)
    have h3 := scanExponent_length_le (scanFraction (source.dropWhile isDigitOrGap)).2
    simp only
    omega

/-- A body that begins with a digit is not empty. -/
theorem scanBody_length_lt {c : Char} {rest : List Char} (h : c.isDigit = true) :
    (scanBody (c :: rest)).2.length < (c :: rest).length := by
  unfold scanBody
  split
  · rename_i rest' heq
    have := length_dropWhile_le isHexDigitOrGap rest'
    simp only [heq, List.length_cons]
    omega
  · have h1 : ((c :: rest).dropWhile isDigitOrGap).length < (c :: rest).length :=
      length_dropWhile_lt (by simp [isDigitOrGap, h])
    have h2 := scanFraction_length_le ((c :: rest).dropWhile isDigitOrGap)
    have h3 := scanExponent_length_le (scanFraction ((c :: rest).dropWhile isDigitOrGap)).2
    simp only
    omega

theorem scanNumber_length_lt {c : Char} (rest : List Char) (h : c = '-' ∨ c.isDigit = true) :
    (scanNumber (c :: rest)).2.length < (c :: rest).length := by
  unfold scanNumber
  split
  · rename_i rest' heq
    have := scanBody_length_le rest'
    simp only [heq, List.length_cons]
    omega
  · rename_i hne
    rcases h with rfl | h
    · exact absurd rfl (hne rest)
    · exact scanBody_length_lt h

/-- Reading a number consumes at least one character. -/
theorem readNumber_length_lt {c : Char} {source rest : List Char} {number : Number}
    (hc : c = '-' ∨ c.isDigit = true) (h : readNumber (c :: source) = .ok (number, rest)) :
    rest.length < (c :: source).length := by
  simp only [readNumber] at h
  split at h
  · simp only [Except.ok.injEq, Prod.mk.injEq] at h
    obtain ⟨-, rfl⟩ := h
    exact scanNumber_length_lt source hc
  · simp at h

end ClauseMatch.Literal
