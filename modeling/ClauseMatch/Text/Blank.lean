/-!
# White space

The characters with the White_Space property, and how a text shrinks when a run of characters at
its head is passed over.
-/

namespace ClauseMatch

/-- Whether a character has the White_Space property. -/
def isBlank (c : Char) : Bool :=
  let n := c.toNat
  (0x09 ≤ n && n ≤ 0x0D) || n == 0x20 || n == 0x85 || n == 0xA0 || n == 0x1680 ||
    (0x2000 ≤ n && n ≤ 0x200A) || n == 0x2028 || n == 0x2029 || n == 0x202F || n == 0x205F ||
    n == 0x3000

/-- The text after its leading white space. -/
def skipBlank (text : List Char) : List Char := text.dropWhile isBlank

theorem length_dropWhile_le (p : Char → Bool) (text : List Char) :
    (text.dropWhile p).length ≤ text.length :=
  (List.dropWhile_sublist p).length_le

theorem length_skipBlank_le (text : List Char) : (skipBlank text).length ≤ text.length :=
  length_dropWhile_le isBlank text

/-- Passing over a run that is not empty leaves a shorter text. -/
theorem length_dropWhile_lt {p : Char → Bool} {text : List Char}
    (h : (text.takeWhile p).isEmpty = false) : (text.dropWhile p).length < text.length := by
  cases text with
  | nil => simp at h
  | cons c rest =>
    by_cases hc : p c
    · have := length_dropWhile_le p rest
      simp [hc]
      omega
    · simp [hc] at h

end ClauseMatch
