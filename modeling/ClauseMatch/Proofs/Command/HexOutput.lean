import ClauseMatch.Command.Encode
import ClauseMatch.Proofs.Bitstring.Bytes
import ClauseMatch.Proofs.Literal.IntegerSpelling

/-!
# Hexadecimal output

In hexadecimal a bitstring is printed as bytes of two lower-case digits with single spaces between
them. A reader that knows nothing but this takes the output apart again: what it reads are the
elements of the bitstring, so that no two sequences are printed alike.
-/

namespace ClauseMatch.Command

/-! ## A reader of hexadecimal output -/

/-- A hexadecimal digit that is no upper-case letter. -/
def isLowerHexDigit (c : Char) : Bool := c.isDigit || ('a' ≤ c && c ≤ 'f')

/-- The element that a piece of the output spells: a number of two lower-case digits. -/
def elementOfPiece? (piece : List Char) : Option Int64 :=
  if piece.length = 2 ∧ piece.all isLowerHexDigit then
    some (Int64.ofNat (natOfDigits 16 piece))
  else none

/-- The elements that an output in hexadecimal spells, a piece between single spaces for each. The
empty output has no pieces. -/
def hexElements? (out : String) : Option (List Int64) :=
  if out = "" then some [] else (out.toList.splitOn ' ').mapM elementOfPiece?

/-! ## Bytes -/

/-- A byte is printed as its high and its low digit. -/
theorem toList_hexByte (byte : UInt8) :
    (hexByte byte).toList =
      [Nat.digitChar (byte.toNat / 16), Nat.digitChar (byte.toNat % 16)] := by
  have hlt := byte.toNat_lt
  rw [hexByte, String.toList_ofList]
  by_cases hsmall : byte.toNat < 16
  · rw [Nat.toDigits_of_lt_base hsmall, Nat.div_eq_of_lt hsmall, Nat.mod_eq_of_lt hsmall]
    rfl
  · have hhigh : byte.toNat / 16 < 16 := by omega
    rw [Nat.toDigits_of_base_le (by decide) (Nat.le_of_not_lt hsmall),
      Nat.toDigits_of_lt_base hhigh]
    rfl

theorem isLowerHexDigit_digitChar : ∀ d < 16, isLowerHexDigit (Nat.digitChar d) = true := by
  decide

/-- A printed byte spells this byte. -/
theorem elementOfPiece?_hexByte (byte : UInt8) :
    elementOfPiece? (hexByte byte).toList = some (Int64.ofNat byte.toNat) := by
  have hhigh : byte.toNat / 16 < 16 := by
    have := byte.toNat_lt
    omega
  have hlow : byte.toNat % 16 < 16 := Nat.mod_lt _ (by decide)
  have hdigits : [Nat.digitChar (byte.toNat / 16), Nat.digitChar (byte.toNat % 16)].all
      isLowerHexDigit = true := by
    rw [List.all_cons, List.all_cons, isLowerHexDigit_digitChar _ hhigh,
      isLowerHexDigit_digitChar _ hlow]
    rfl
  have hvalue : natOfDigits 16
      [Nat.digitChar (byte.toNat / 16), Nat.digitChar (byte.toNat % 16)] = byte.toNat := by
    simp only [natOfDigits, List.foldl_cons, List.foldl_nil,
      (Literal.digitValue_digitChar hhigh (Or.inl rfl)).1,
      (Literal.digitValue_digitChar hlow (Or.inl rfl)).1]
    omega
  rw [toList_hexByte, elementOfPiece?, if_pos ⟨rfl, hdigits⟩, hvalue]

theorem space_not_mem_hexByte (byte : UInt8) : ' ' ∉ (hexByte byte).toList := by
  have hdigit : ∀ d < 16, Nat.digitChar d ≠ ' ' := by decide
  have hlt := byte.toNat_lt
  rw [toList_hexByte, List.mem_cons, List.mem_singleton, not_or]
  exact ⟨(hdigit _ (by omega)).symm, (hdigit _ (by omega)).symm⟩

/-! ## Outputs -/

/-- Between the spaces of an output that is not empty stand the bytes. -/
theorem splitOn_intercalate_hexByte {bytes : List UInt8} (h : bytes ≠ []) :
    (" ".intercalate (bytes.map hexByte)).toList.splitOn ' ' =
      bytes.map fun byte => (hexByte byte).toList := by
  rw [String.toList_intercalate, List.map_map]
  refine List.splitOn_intercalate ' ' ?_ (mt List.map_eq_nil_iff.mp h)
  intro piece hpiece
  obtain ⟨byte, -, rfl⟩ := List.mem_map.mp hpiece
  exact space_not_mem_hexByte byte

theorem mapM_elementOfPiece? (bytes : List UInt8) :
    (bytes.map fun byte => (hexByte byte).toList).mapM elementOfPiece? =
      some (elements (bytes.map UInt8.toNat)) := by
  induction bytes with
  | nil => rfl
  | cons byte bytes ih =>
    rw [List.map_cons, List.mapM_cons, elementOfPiece?_hexByte, ih]
    rfl

theorem hexElements?_intercalate (bytes : List UInt8) :
    hexElements? (" ".intercalate (bytes.map hexByte)) = some (elements (bytes.map UInt8.toNat)) := by
  by_cases hbytes : bytes = []
  · rw [hbytes]
    rfl
  · have hpieces := splitOn_intercalate_hexByte hbytes
    have hne : " ".intercalate (bytes.map hexByte) ≠ "" := by
      intro hempty
      obtain ⟨byte, more, rfl⟩ := List.exists_cons_of_ne_nil hbytes
      rw [hempty] at hpieces
      have hfirst : [] = (hexByte byte).toList := (List.cons.inj hpieces).1
      rw [toList_hexByte] at hfirst
      cases hfirst
    rw [hexElements?, if_neg hne, hpieces, mapM_elementOfPiece?]

/-- What is printed in hexadecimal spells the elements of the bitstring. -/
theorem hexElements?_of_render {bits : Bitstring} {out : String} (h : render .hex bits = .ok out) :
    hexElements? out = some bits.values := by
  obtain ⟨bytes, hbytes, rfl⟩ := map_eq_ok_iff.mp h
  rw [hexElements?_intercalate, Bitstring.toBytes_eq_ok_iff.mp hbytes]

end ClauseMatch.Command
