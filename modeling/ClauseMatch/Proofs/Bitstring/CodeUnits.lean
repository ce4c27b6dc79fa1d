import ClauseMatch.Proofs.Bitstring.Bytes

/-!
# Sixteen-bit slots and UTF-16

Texts are encoded in one slot for every UTF-16 code unit, and a slot holds that code unit with one
exception: in the place of a leading surrogate stands the low half of the character's code point,
from which the plane of the character cannot be told. What cannot be mistaken is the trailing
surrogate after it, since no character has a code point that is a surrogate. So a text without
characters above U+FFFF is in standard UTF-16, and no other text has the same slots. A slot of four
bytes holds what a slot of two bytes does, behind two zeros.
-/

namespace ClauseMatch

/-! ## Code units -/

/-- The UTF-16 code units of a character: its code point up to U+FFFF, and above that a leading and
a trailing surrogate. -/
def utf16Units (c : Char) : List Nat :=
  if c.toNat ≤ 0xFFFF then [c.toNat]
  else [0xD800 + (c.toNat - 0x10000) / 0x400, 0xDC00 + (c.toNat - 0x10000) % 0x400]

/-- The UTF-16 code units of a text. -/
def codeUnits (text : String) : List Nat := text.toList.flatMap utf16Units

/-- A code unit that begins a pair of surrogates. -/
def IsLeading (unit : Nat) : Prop := 0xD800 ≤ unit ∧ unit < 0xDC00

/-- The code units of a character begin at the given place among those of the text. -/
def BeginsAt (text : String) (place : Nat) (c : Char) : Prop :=
  ∃ before after, text.toList = before ++ c :: after ∧
    place = (before.flatMap utf16Units).length

/-- A character is outside the range of surrogates. -/
theorem toNat_not_surrogate (c : Char) :
    c.toNat < 0xD800 ∨ 0xDFFF < c.toNat ∧ c.toNat < 0x110000 := by
  rcases c.valid with h | ⟨hlow, hhigh⟩
  · exact Or.inl h
  · exact Or.inr ⟨hlow, hhigh⟩

/-- The slots of a text. -/
def slots (text : List Char) : List Nat := text.flatMap codeUnitSlots

theorem codeUnitSlots_of_le {c : Char} (h : c.toNat ≤ 0xFFFF) : codeUnitSlots c = [c.toNat] := by
  simp only [codeUnitSlots, h, if_true]

theorem codeUnitSlots_of_lt {c : Char} (h : 0xFFFF < c.toNat) :
    codeUnitSlots c = [c.toNat % 0x10000, 0xDC00 + (c.toNat - 0x10000) % 0x400] := by
  have hnot : ¬ c.toNat ≤ 0xFFFF := by omega
  rw [codeUnitSlots, if_neg hnot]

theorem utf16Units_of_le {c : Char} (h : c.toNat ≤ 0xFFFF) : utf16Units c = [c.toNat] := by
  simp only [utf16Units, h, if_true]

theorem utf16Units_of_lt {c : Char} (h : 0xFFFF < c.toNat) :
    utf16Units c =
      [0xD800 + (c.toNat - 0x10000) / 0x400, 0xDC00 + (c.toNat - 0x10000) % 0x400] := by
  have hnot : ¬ c.toNat ≤ 0xFFFF := by omega
  rw [utf16Units, if_neg hnot]

theorem length_codeUnitSlots (c : Char) : (codeUnitSlots c).length = (utf16Units c).length := by
  rcases Nat.lt_or_ge 0xFFFF c.toNat with h | h
  · rw [codeUnitSlots_of_lt h, utf16Units_of_lt h]
    simp only [List.length_cons, List.length_nil]
  · rw [codeUnitSlots_of_le h, utf16Units_of_le h]

theorem length_slots (text : List Char) :
    (slots text).length = (text.flatMap utf16Units).length := by
  simp only [slots, List.length_flatMap, length_codeUnitSlots]

/-- What the slot of one of a character's code units holds. -/
theorem codeUnitSlots_getElem? {c : Char} {place unit : Nat}
    (h : (utf16Units c)[place]? = some unit) :
    (¬ IsLeading unit ∧ (codeUnitSlots c)[place]? = some unit) ∨
      (IsLeading unit ∧ place = 0 ∧ (codeUnitSlots c)[place]? = some (c.toNat % 0x10000)) := by
  have hrange := toNat_not_surrogate c
  rcases Nat.lt_or_ge 0xFFFF c.toNat with hc | hc
  · rw [utf16Units_of_lt hc] at h
    rw [codeUnitSlots_of_lt hc]
    rcases place with _ | _ | place
    · have hunit : 0xD800 + (c.toNat - 0x10000) / 0x400 = unit := Option.some.inj h
      exact Or.inr ⟨⟨by omega, by omega⟩, rfl, rfl⟩
    · have hunit : 0xDC00 + (c.toNat - 0x10000) % 0x400 = unit := Option.some.inj h
      refine Or.inl ⟨fun hleading => ?_, congrArg some hunit⟩
      have := hleading.2
      omega
    · simp at h
  · rw [utf16Units_of_le hc] at h
    rw [codeUnitSlots_of_le hc]
    rcases place with _ | place
    · have hunit : c.toNat = unit := Option.some.inj h
      refine Or.inl ⟨fun hleading => ?_, congrArg some hunit⟩
      obtain ⟨hlow, hhigh⟩ := hleading
      omega
    · simp at h

/-- What the slot of a text's code unit holds. -/
theorem slots_getElem? {text : List Char} {place unit : Nat}
    (h : (text.flatMap utf16Units)[place]? = some unit) :
    (¬ IsLeading unit ∧ (slots text)[place]? = some unit) ∨
      (IsLeading unit ∧ ∃ before c after, text = before ++ c :: after ∧
        place = (before.flatMap utf16Units).length ∧
        (slots text)[place]? = some (c.toNat % 0x10000)) := by
  induction text generalizing place with
  | nil => simp at h
  | cons c text ih =>
    have hlength := length_codeUnitSlots c
    rw [List.flatMap_cons] at h
    rw [slots, List.flatMap_cons]
    rcases Nat.lt_or_ge place (utf16Units c).length with hplace | hplace
    · rw [List.getElem?_append_left hplace] at h
      rw [List.getElem?_append_left (by omega)]
      rcases codeUnitSlots_getElem? h with hslot | ⟨hleading, rfl, hslot⟩
      · exact Or.inl hslot
      · exact Or.inr ⟨hleading, [], c, text, rfl, rfl, hslot⟩
    · rw [List.getElem?_append_right hplace] at h
      rw [List.getElem?_append_right (by omega), hlength]
      rcases ih h with hslot | ⟨hleading, before, d, after, rfl, hbefore, hslot⟩
      · exact Or.inl hslot
      · refine Or.inr ⟨hleading, c :: before, d, after, rfl, ?_, hslot⟩
        rw [List.flatMap_cons, List.length_append]
        omega

/-! ## Slots as bytes -/

/-- The elements of a text in two-byte slots. -/
def utf16Elements (text : String) : List Int64 := elements (utf16Bytes text)

/-- The elements of a text in four-byte slots. -/
def utf32Elements (text : String) : List Int64 := elements (utf32Bytes text)

/-- Elements read in pairs, high byte first. -/
def pairs : List Int64 → List Int
  | high :: low :: rest => (high.toInt * 256 + low.toInt) :: pairs rest
  | _ => []

/-- Elements read in fours, of which the first two are left out. -/
def lowPairs : List Int64 → List Int
  | _ :: _ :: high :: low :: rest => (high.toInt * 256 + low.toInt) :: lowPairs rest
  | _ => []

/-- Elements with two zeros in front of every pair. -/
def widened : List Int64 → List Int64
  | high :: low :: rest => 0 :: 0 :: high :: low :: widened rest
  | rest => rest

/-- Numbers of sixteen bits in two bytes each, high byte first. -/
def bigEndian (units : List Nat) : List Nat := units.flatMap fun unit => [unit / 256, unit % 256]

theorem utf16Elements_eq (text : String) :
    utf16Elements text = elements (bigEndian (slots text.toList)) := rfl

theorem lt_of_mem_slots {text : List Char} {slot : Nat} (h : slot ∈ slots text) :
    slot < 65536 := by
  obtain ⟨c, -, hc⟩ := List.mem_flatMap.mp h
  exact lt_of_mem_codeUnitSlots hc

theorem pairs_bigEndian {units : List Nat} (h : ∀ unit ∈ units, unit < 65536) :
    pairs (elements (bigEndian units)) = units.map Int.ofNat := by
  induction units with
  | nil => rfl
  | cons unit units ih =>
    obtain ⟨hunit, hunits⟩ := List.forall_mem_cons.mp h
    have hhigh : (Int64.ofNat (unit / 256)).toInt = ((unit / 256 : Nat) : Int) :=
      Int64.toInt_ofNat_of_lt (by omega)
    have hlow : (Int64.ofNat (unit % 256)).toInt = ((unit % 256 : Nat) : Int) :=
      Int64.toInt_ofNat_of_lt (by omega)
    have hcons : pairs (elements (bigEndian (unit :: units))) =
        ((Int64.ofNat (unit / 256)).toInt * 256 + (Int64.ofNat (unit % 256)).toInt) ::
          pairs (elements (bigEndian units)) := rfl
    rw [hcons, ih hunits, hhigh, hlow, List.map_cons, Int.ofNat_eq_natCast]
    congr 1
    omega

theorem pairs_utf16Elements (text : String) :
    pairs (utf16Elements text) = (slots text.toList).map Int.ofNat :=
  pairs_bigEndian fun _ => lt_of_mem_slots

theorem length_utf16Elements (text : String) :
    (utf16Elements text).length = 2 * (codeUnits text).length := by
  have hbytes (units : List Nat) : (bigEndian units).length = 2 * units.length := by
    induction units with
    | nil => rfl
    | cons unit units ih =>
      simp only [bigEndian, List.flatMap_cons, List.length_append, List.length_cons,
        List.length_nil] at ih ⊢
      omega
  rw [utf16Elements_eq, elements, List.length_map, hbytes, length_slots, codeUnits]

/-- Every slot of four bytes is one of two bytes behind two zeros. -/
theorem utf32Elements_eq (text : String) :
    utf32Elements text = widened (utf16Elements text) := by
  have hwide (units : List Nat) :
      elements (units.flatMap fun unit => [0, 0, unit / 256, unit % 256]) =
        widened (elements (bigEndian units)) := by
    induction units with
    | nil => rfl
    | cons unit units ih =>
      have hcons : widened (elements (bigEndian (unit :: units))) =
          0 :: 0 :: Int64.ofNat (unit / 256) :: Int64.ofNat (unit % 256) ::
            widened (elements (bigEndian units)) := rfl
      rw [hcons, ← ih]
      rfl
  exact hwide (slots text.toList)

/-! ## Texts with the same slots -/

/-- What has been put in front of the pairs does not hide them. -/
theorem lowPairs_widened (values : List Int64) : lowPairs (widened values) = pairs values := by
  fun_induction widened values with
  | case1 high low rest ih => rw [lowPairs, pairs, ih]
  | case2 rest hshort =>
    match rest with
    | [] | [_] => rfl
    | high :: low :: rest => exact absurd rfl (hshort high low rest)

theorem slots_eq_of_utf16Elements_eq {s t : String} (h : utf16Elements s = utf16Elements t) :
    slots s.toList = slots t.toList := by
  have hpairs := congrArg pairs h
  rw [pairs_utf16Elements, pairs_utf16Elements] at hpairs
  exact List.map_injective_iff.mpr (fun _ _ => Int.ofNat.inj) hpairs

theorem utf16Elements_eq_iff {s t : String} :
    utf16Elements s = utf16Elements t ↔ utf32Elements s = utf32Elements t := by
  constructor
  · intro h
    rw [utf32Elements_eq, utf32Elements_eq, h]
  · intro h
    have hpairs := congrArg lowPairs h
    rw [utf32Elements_eq, utf32Elements_eq, lowPairs_widened, lowPairs_widened,
      pairs_utf16Elements, pairs_utf16Elements] at hpairs
    have hslots := List.map_injective_iff.mpr (fun _ _ => Int.ofNat.inj) hpairs
    rw [utf16Elements_eq, utf16Elements_eq, hslots]

/-- The trailing surrogate of a character above U+FFFF is in no slot of a text without such
characters. -/
theorem forall_le_of_slots_eq {text text' : List Char} (hs : ∀ c ∈ text, c.toNat ≤ 0xFFFF)
    (h : slots text = slots text') : ∀ c ∈ text', c.toNat ≤ 0xFFFF := by
  intro c hc
  by_contra hastral
  have htrailing : 0xDC00 + (c.toNat - 0x10000) % 0x400 ∈ slots text' := by
    refine List.mem_flatMap.mpr ⟨c, hc, ?_⟩
    rw [codeUnitSlots_of_lt (Nat.not_le.mp hastral)]
    exact List.mem_cons_of_mem _ List.mem_cons_self
  rw [← h] at htrailing
  obtain ⟨d, hd, hslot⟩ := List.mem_flatMap.mp htrailing
  rw [codeUnitSlots_of_le (hs d hd), List.mem_singleton] at hslot
  have hrange := toNat_not_surrogate d
  omega

theorem slots_eq_units {text : List Char} (h : ∀ c ∈ text, c.toNat ≤ 0xFFFF) :
    slots text = text.flatMap utf16Units :=
  List.flatMap_congr fun c hc => by rw [codeUnitSlots_of_le (h c hc), utf16Units_of_le (h c hc)]

theorem slots_eq_map {text : List Char} (h : ∀ c ∈ text, c.toNat ≤ 0xFFFF) :
    slots text = text.map Char.toNat := by
  rw [List.map_eq_flatMap]
  exact List.flatMap_congr fun c hc => codeUnitSlots_of_le (h c hc)

/-- A text without characters above U+FFFF is the only one with its slots. -/
theorem eq_of_utf16Elements_eq {s t : String} (hs : ∀ c ∈ s.toList, c.toNat ≤ 0xFFFF)
    (h : utf16Elements s = utf16Elements t) : t = s := by
  have hslots := slots_eq_of_utf16Elements_eq h
  have ht := forall_le_of_slots_eq hs hslots
  rw [slots_eq_map hs, slots_eq_map ht] at hslots
  have hchars := List.map_injective_iff.mpr (fun _ _ => Char.toNat_inj.mp) hslots
  exact (String.toList_inj.mp hchars).symm

/-- A text in UTF-16 has two elements, both bytes, for every UTF-16 code unit, and these are the
code unit, high byte first, unless it is a leading surrogate: then they are the low half of the code
point of the character that begins there. In UTF-32 the elements are the same, with two zeros in
front of every pair, so that texts have the same elements in both or in neither. A text without
characters above U+FFFF has the bytes of standard UTF-16, and no other text has its elements. -/
theorem slots_follow_utf16 (s t : String) :
    (Segment.utf16 s).encode = .ok (utf16Elements s) ∧
    (Segment.utf32 s).encode = .ok (utf32Elements s) ∧
    (utf16Elements s).length = 2 * (codeUnits s).length ∧
    (∀ v ∈ utf16Elements s, IsByte v) ∧
    (∀ place unit : Nat, (codeUnits s)[place]? = some unit → ¬ IsLeading unit →
      (pairs (utf16Elements s))[place]? = some (unit : Int)) ∧
    (∀ place unit : Nat, (codeUnits s)[place]? = some unit → IsLeading unit →
      ∃ c, BeginsAt s place c ∧
        (pairs (utf16Elements s))[place]? = some ((c.toNat % 0x10000 : Nat) : Int)) ∧
    utf32Elements s = widened (utf16Elements s) ∧
    (utf16Elements s = utf16Elements t ↔ utf32Elements s = utf32Elements t) ∧
    ((∀ c ∈ s.toList, c.toNat ≤ 0xFFFF) →
      utf16Elements s = elements (bigEndian (codeUnits s)) ∧
        (utf16Elements s = utf16Elements t → t = s)) := by
  refine ⟨rfl, rfl, length_utf16Elements s, isByte_of_mem_elements fun _ => lt_of_mem_utf16Bytes,
    fun place unit hunit hleading => ?_, fun place unit hunit hleading => ?_, utf32Elements_eq s,
    utf16Elements_eq_iff, fun hs => ⟨?_, eq_of_utf16Elements_eq hs⟩⟩
  · rw [pairs_utf16Elements, List.getElem?_map]
    rcases slots_getElem? hunit with ⟨-, hslot⟩ | ⟨hleading', -⟩
    · rw [hslot]
      rfl
    · exact absurd hleading' hleading
  · rw [pairs_utf16Elements, List.getElem?_map]
    rcases slots_getElem? hunit with ⟨hleading', -⟩ | ⟨-, before, c, after, htext, hplace, hslot⟩
    · exact absurd hleading hleading'
    · refine ⟨c, ⟨before, after, htext, hplace⟩, ?_⟩
      rw [hslot]
      rfl
  · rw [utf16Elements_eq, slots_eq_units hs, codeUnits]

/-- A character above U+FFFF between two others, and a text without any. -/
theorem slots_follow_utf16_astral :
    (codeUnits "a😀b")[1]? = some 0xD83D ∧ IsLeading 0xD83D ∧
    (∃ c, BeginsAt "a😀b" 1 c ∧
      (pairs (utf16Elements "a😀b"))[1]? = some ((c.toNat % 0x10000 : Nat) : Int)) ∧
    (codeUnits "a😀b")[2]? = some 0xDE00 ∧ ¬ IsLeading 0xDE00 ∧
    (pairs (utf16Elements "a😀b"))[2]? = some ((0xDE00 : Nat) : Int) ∧
    (∀ c ∈ "é€".toList, c.toNat ≤ 0xFFFF) ∧
    utf16Elements "é€" = elements (bigEndian (codeUnits "é€")) ∧
    utf16Elements "é€" ≠ utf16Elements "😀" := by
  obtain ⟨-, -, -, -, hother, hleading, -⟩ := slots_follow_utf16 "a😀b" ""
  obtain ⟨-, -, -, -, -, -, -, -, hplain⟩ := slots_follow_utf16 "é€" "😀"
  have hone : (codeUnits "a😀b")[1]? = some 0xD83D := by decide
  have htwo : (codeUnits "a😀b")[2]? = some 0xDE00 := by decide
  have hhigh : IsLeading 0xD83D := by
    unfold IsLeading
    omega
  have hlow : ¬ IsLeading 0xDE00 := by
    unfold IsLeading
    omega
  have hchars : ∀ c ∈ "é€".toList, c.toNat ≤ 0xFFFF := by simp
  obtain ⟨hstandard, hunique⟩ := hplain hchars
  exact ⟨hone, hhigh, hleading 1 _ hone hhigh, htwo, hlow, hother 2 _ htwo hlow, hchars, hstandard,
    fun hsame => absurd (hunique hsame) (by decide)⟩

end ClauseMatch
