import ClauseMatch.Proofs.Value.Delimited
import ClauseMatch.Proofs.Value.Embedding
import ClauseMatch.Proofs.Value.Text

/-!
# Values that are told by their text

The first character of a text tells what sort of value it shows; numbers and names, quoted texts and
sequences show where they end, and so do items joined by commas between brackets. By induction on
one of two values, their texts are therefore equal only if the values are. This needs names without
the signs that stand around them. Floats are left out: their first character is that of an integer.
-/

namespace ClauseMatch

/-- A name of letters, digits and underscores, and at least one of them. -/
def Atom.isPlain (a : Atom) : Bool := a.name != "" && a.name.toList.all Literal.isNameChar

namespace Value

/-- The names that a value shows itself, as opposed to its items and the values of its fields. -/
def ownNames : Value → List Atom
  | atom a => [a]
  | object tag fields => tag :: fieldKeys fields
  | _ => []

/-- All names in the value, at any depth, are plain. -/
abbrev PlainlyNamed : Value → Prop := Without fun v => !v.ownNames.all Atom.isPlain

/-- The values that their text tells. -/
structure Legible (v : Value) : Prop where
  built : Built v
  floatFree : FloatFree v
  named : PlainlyNamed v

namespace Legible

theorem list {items : List Value} (h : ∀ v ∈ items, Legible v) : Legible (.list items) where
  built := .list fun v hv => (h v hv).built
  floatFree := .list rfl fun v hv => (h v hv).floatFree
  named := .list rfl fun v hv => (h v hv).named

theorem of_list {items : List Value} (h : Legible (.list items)) : ∀ v ∈ items, Legible v :=
  fun v hv => ⟨h.built.of_list v hv, h.floatFree.of_list v hv, h.named.of_list v hv⟩

theorem of_tuple {items : List Value} (h : Legible (.tuple items)) : ∀ v ∈ items, Legible v :=
  fun v hv => ⟨h.built.of_tuple v hv, h.floatFree.of_tuple v hv, h.named.of_tuple v hv⟩

theorem of_object {tag : Atom} {fields : List (Atom × Value)} (h : Legible (.object tag fields)) :
    ∀ field ∈ fields, Legible field.2 :=
  fun field hfield => ⟨h.built.of_object.2 field hfield, h.floatFree.of_object field hfield,
    h.named.of_object field hfield⟩

theorem isPlain {v : Value} (h : Legible v) : ∀ a ∈ v.ownNames, a.isPlain = true := by
  have hall := h.named.not_excluded
  simpa using hall

end Legible

/-! ## Texts by their characters -/

/-- The characters of a value's text. -/
def chars (v : Value) : List Char := v.text.toList

/-- The characters of a field's text. -/
def fieldChars (field : Atom × Value) : List Char :=
  field.1.name.toList ++ ':' :: ' ' :: field.2.chars

/-- The characters that an object shows of its tag. -/
def tagChars (tag : Atom) : List Char := if tag = Atom.object then [] else tag.name.toList

theorem chars_int (n : Int64) : (int n).chars = (toString n.toInt).toList := by
  simp [chars, text, write, ValueStyle.plain]

theorem chars_atom (a : Atom) : (atom a).chars = ':' :: a.name.toList := by
  simp [chars, text, write, ValueStyle.plain]

theorem chars_str (text : String) : (str text).chars = (quoted text).toList := by
  simp [chars, Value.text, write, ValueStyle.plain]

theorem chars_bitstring (bits : Bitstring) :
    (bitstring bits).chars = (sequenceText bits.values).toList := by
  simp [chars, text, write, ValueStyle.plain, Bitstring.text]

theorem chars_list (items : List Value) :
    (list items).chars = '[' :: ([',', ' '].intercalate (items.map chars) ++ [']']) := by
  rw [chars, text_list, String.toList_append, String.toList_append, String.toList_intercalate,
    List.map_map]
  rfl

theorem chars_tuple (items : List Value) :
    (tuple items).chars = '\x7b' :: ([',', ' '].intercalate (items.map chars) ++ ['\x7d']) := by
  rw [chars, text_tuple, String.toList_append, String.toList_append, String.toList_intercalate,
    List.map_map]
  rfl

theorem toList_fieldText (field : Atom × Value) :
    (fieldText .plain field).toList = fieldChars field := by
  have hkey : ValueStyle.plain.key field.1 = field.1.name ++ ": " := rfl
  rw [fieldText, hkey, String.toList_append, String.toList_append, List.append_assoc]
  rfl

theorem toList_objectBracket (tag : Atom) :
    (objectBracket tag).toList = '%' :: (tagChars tag ++ ['\x7b']) := by
  rw [objectBracket, tagChars]
  split
  · rfl
  · rw [String.toList_append, String.toList_append]
    rfl

theorem chars_object (tag : Atom) (fields : List (Atom × Value)) :
    (object tag fields).chars = '%' :: (tagChars tag ++
      '\x7b' :: ([',', ' '].intercalate (fields.map fieldChars) ++ ['\x7d'])) := by
  rw [chars, text_object, String.toList_append, String.toList_append, String.toList_intercalate,
    List.map_map, toList_objectBracket]
  have hfields : String.toList ∘ fieldText .plain = fieldChars := funext toList_fieldText
  rw [hfields]
  simp

/-! ## The first character -/

/-- The name of the sort of value whose text has the given first character. -/
def sortName? (c : Char) : Option String :=
  if isIntChar c then some "int"
  else match c with
    | 'n' => some "nil"
    | 't' | 'f' => some "bool"
    | ':' => some "atom"
    | '"' => some "str"
    | '[' => some "list"
    | '\x7b' => some "tuple"
    | '%' => some "object"
    | '<' => some "bitstring"
    | _ => none

theorem exists_chars_eq_cons {v : Value} (hv : FloatFree v) :
    ∃ c more, v.chars = c :: more ∧ sortName? c = some v.typeTag.name := by
  cases v with
  | nil => exact ⟨'n', _, rfl, rfl⟩
  | bool b =>
    cases b with
    | true => exact ⟨'t', _, rfl, rfl⟩
    | false => exact ⟨'f', _, rfl, rfl⟩
  | int n =>
    have hne : (toString n.toInt).toList ≠ [] := by
      rw [Literal.toList_toString_int]
      exact List.append_ne_nil_of_right_ne_nil _ Nat.toDigits_ne_nil
    obtain ⟨c, more, htext⟩ := List.exists_cons_of_ne_nil hne
    have hmem : c ∈ (toString n.toInt).toList := htext ▸ List.mem_cons_self
    have hc : isIntChar c = true := isIntChar_of_mem_intText hmem
    exact ⟨c, more, (chars_int n).trans htext, if_pos hc⟩
  | float x => exact absurd hv.not_excluded (by simp [asFloat?])
  | atom a => exact ⟨':', _, chars_atom a, rfl⟩
  | str text => exact ⟨'"', _, by rw [chars_str, quoted, String.toList_ofList], rfl⟩
  | list items => exact ⟨'[', _, chars_list items, rfl⟩
  | tuple items => exact ⟨'\x7b', _, chars_tuple items, rfl⟩
  | object tag fields => exact ⟨'%', _, chars_object tag fields, rfl⟩
  | bitstring bits =>
    exact ⟨'<', _, by rw [chars_bitstring, Literal.toList_sequenceText], rfl⟩

/-- No value begins with a bracket that closes one. -/
theorem exists_chars_ne_close {v : Value} {close : Char} (hv : FloatFree v)
    (hclose : close = ']' ∨ close = '\x7d') : ∃ c more, v.chars = c :: more ∧ c ≠ close := by
  obtain ⟨c, more, hchars, hsort⟩ := exists_chars_eq_cons hv
  refine ⟨c, more, hchars, ?_⟩
  rintro rfl
  rcases hclose with rfl | rfl <;> cases hsort

/-- The two values have the same constructor. -/
inductive SameSort : Value → Value → Prop where
  | nil : SameSort .nil .nil
  | bool (a b : Bool) : SameSort (.bool a) (.bool b)
  | int (n m : Int64) : SameSort (.int n) (.int m)
  | float (x y : Binary64) : SameSort (.float x) (.float y)
  | atom (a b : Atom) : SameSort (.atom a) (.atom b)
  | str (a b : String) : SameSort (.str a) (.str b)
  | list (as bs : List Value) : SameSort (.list as) (.list bs)
  | tuple (as bs : List Value) : SameSort (.tuple as) (.tuple bs)
  | object (tag tag' : Atom) (as bs : List (Atom × Value)) :
      SameSort (.object tag as) (.object tag' bs)
  | bitstring (a b : Bitstring) : SameSort (.bitstring a) (.bitstring b)

theorem sameSort_of_typeTag_name {v w : Value} (h : v.typeTag.name = w.typeTag.name) :
    SameSort v w := by
  cases v <;> cases w <;> first | constructor | simp [typeTag, TypeTag.name] at h

/-- Values whose texts begin alike are of one sort. -/
theorem sameSort_of_chars {v w : Value} {r s : List Char} (hv : FloatFree v) (hw : FloatFree w)
    (h : v.chars ++ r = w.chars ++ s) : SameSort v w := by
  obtain ⟨c, more, hchars, hsort⟩ := exists_chars_eq_cons hv
  obtain ⟨c', more', hchars', hsort'⟩ := exists_chars_eq_cons hw
  rw [hchars, hchars'] at h
  obtain rfl : c = c' := (List.cons.inj h).1
  exact sameSort_of_typeTag_name (Option.some.inj (hsort.symm.trans hsort'))

/-! ## Names -/

theorem isPlain_iff {a : Atom} :
    a.isPlain = true ↔ a.name ≠ "" ∧ ∀ c ∈ a.name.toList, Literal.isNameChar c = true := by
  simp [Atom.isPlain]

theorem name_append_inj {a b : Atom} {r s : List Char} (ha : a.isPlain = true)
    (hb : b.isPlain = true) (hr : ∀ c ∈ r.head?, Literal.isNameChar c = false)
    (hs : ∀ c ∈ s.head?, Literal.isNameChar c = false)
    (h : a.name.toList ++ r = b.name.toList ++ s) : a = b ∧ r = s := by
  obtain ⟨hname, hrest⟩ := run_append_inj (isPlain_iff.mp ha).2 (isPlain_iff.mp hb).2 hr hs h
  exact ⟨congrArg Atom.mk (String.toList_inj.mp hname), hrest⟩

theorem isNameChar_of_mem_tagChars {tag : Atom} (h : tag.isPlain = true) :
    ∀ c ∈ tagChars tag, Literal.isNameChar c = true := by
  rw [tagChars]
  split
  · simp
  · exact (isPlain_iff.mp h).2

/-- A tag that is not shown is that of plain objects, since the others have names to show. -/
theorem tagChars_inj {tag tag' : Atom} (h : tag.isPlain = true) (h' : tag'.isPlain = true)
    (htags : tagChars tag = tagChars tag') : tag = tag' := by
  have hshown := (isPlain_iff.mp h).1
  have hshown' := (isPlain_iff.mp h').1
  rw [tagChars, tagChars] at htags
  split at htags <;> split at htags
  · rename_i htag htag'
    rw [htag, htag']
  · exact absurd (String.toList_eq_nil_iff.mp htags.symm) hshown'
  · exact absurd (String.toList_eq_nil_iff.mp htags) hshown
  · exact congrArg Atom.mk (String.toList_inj.mp htags)

/-! ## Values -/

theorem Legible.toldBy_leaf {v w : Value} (hv : Legible v) (hw : Legible w)
    (hleaf : v.isLeaf = true) : ToldBy chars DeepEqual v w := by
  intro r s hr hs h
  cases sameSort_of_chars hv.floatFree hw.floatFree h with
  | nil => exact ⟨EqualParts.nil.deepEqual, List.append_cancel_left h⟩
  | bool a b =>
    cases a <;> cases b
    · exact ⟨(EqualParts.bool false).deepEqual, List.append_cancel_left h⟩
    · exact absurd (List.cons.inj h).1 (by decide)
    · exact absurd (List.cons.inj h).1 (by decide)
    · exact ⟨(EqualParts.bool true).deepEqual, List.append_cancel_left h⟩
  | int n m =>
    rw [chars_int, chars_int] at h
    obtain ⟨rfl, hrest⟩ := toldBy_intText n m r s hr hs h
    exact ⟨(EqualParts.int n).deepEqual, hrest⟩
  | float x y => exact absurd hv.floatFree.not_excluded (by simp [asFloat?])
  | atom a b =>
    rw [chars_atom, chars_atom] at h
    obtain ⟨rfl, hrest⟩ := name_append_inj (hv.isPlain a (by simp [ownNames]))
      (hw.isPlain b (by simp [ownNames])) (hr.not_head (by decide)) (hs.not_head (by decide))
      (List.cons.inj h).2
    exact ⟨(EqualParts.atom a).deepEqual, hrest⟩
  | str a b =>
    rw [chars_str, chars_str] at h
    obtain ⟨rfl, hrest⟩ := quoted_append_inj h
    exact ⟨(EqualParts.str a).deepEqual, hrest⟩
  | bitstring a b =>
    rw [chars_bitstring, chars_bitstring] at h
    obtain ⟨hvalues, hrest⟩ := sequenceText_append_inj h
    exact ⟨(EqualParts.bitstring hvalues).deepEqual, hrest⟩
  | list | tuple | object => simp [isLeaf] at hleaf

theorem forall₂_of_joined_chars {as bs : List Value} {close : Char} {r s : List Char}
    (hclose : close = ']' ∨ close = '\x7d') (has : ∀ v ∈ as, Legible v) (hbs : ∀ v ∈ bs, Legible v)
    (htold : ∀ a ∈ as, ∀ b ∈ bs, ToldBy chars DeepEqual a b)
    (h : [',', ' '].intercalate (as.map chars) ++ close :: r =
      [',', ' '].intercalate (bs.map chars) ++ close :: s) :
    List.Forall₂ DeepEqual as bs ∧ r = s := by
  refine forall₂_of_joined hclose ?_ htold h
  rintro v (hv | hv)
  · exact exists_chars_ne_close (has v hv).floatFree hclose
  · exact exists_chars_ne_close (hbs v hv).floatFree hclose

/-- Equal fields: the same key and equal values. -/
def SameField (a b : Atom × Value) : Prop := a.1 = b.1 ∧ DeepEqual a.2 b.2

theorem toldBy_field {a b : Atom × Value} (ha : a.1.isPlain = true) (hb : b.1.isPlain = true)
    (htold : ToldBy chars DeepEqual a.2 b.2) : ToldBy fieldChars SameField a b := by
  intro r s hr hs h
  rw [fieldChars, fieldChars, List.append_assoc, List.append_assoc] at h
  obtain ⟨hkey, hvalue⟩ := name_append_inj ha hb (Literal.not_head_cons (by decide) _)
    (Literal.not_head_cons (by decide) _) h
  obtain ⟨hequal, hrest⟩ := htold r s hr hs (by simpa using hvalue)
  exact ⟨⟨hkey, hequal⟩, hrest⟩

theorem exists_fieldChars_ne_close {field : Atom × Value} (h : field.1.isPlain = true) :
    ∃ c more, fieldChars field = c :: more ∧ c ≠ '\x7d' := by
  obtain ⟨hname, hchars⟩ := isPlain_iff.mp h
  obtain ⟨c, more, hkey⟩ := List.exists_cons_of_ne_nil (mt String.toList_eq_nil_iff.mp hname)
  have hc : Literal.isNameChar c = true := hchars c (by rw [hkey]; exact List.mem_cons_self)
  refine ⟨c, _, by rw [fieldChars, hkey, List.cons_append], ?_⟩
  rintro rfl
  exact absurd hc (by decide)

theorem deepEqual_object_of_forall₂ {tag : Atom} {as bs : List (Atom × Value)}
    (hkeys : (fieldKeys bs).Nodup) (h : List.Forall₂ SameField as bs) :
    DeepEqual (.object tag as) (.object tag bs) := by
  obtain ⟨hlength, hget⟩ := List.forall₂_iff_get.mp h
  refine (EqualParts.object hlength fun field hfield => ?_).deepEqual
  obtain ⟨i, hi, rfl⟩ := List.getElem_of_mem hfield
  obtain ⟨hkey, hequal⟩ := hget i hi (hlength ▸ hi)
  have hfound := getField?_eq_some_of_mem hkeys (List.getElem_mem (hlength ▸ hi))
  exact ⟨_, by rw [← hfound]; exact congrArg (getField? bs) hkey, hequal⟩

/-- Objects are told by their text if the values of their fields are. -/
theorem Legible.object_told {tag tag' : Atom} {as bs : List (Atom × Value)} {r s : List Char}
    (hv : Legible (.object tag as)) (hw : Legible (.object tag' bs))
    (htold : ∀ a ∈ as, ∀ b ∈ bs, ToldBy chars DeepEqual a.2 b.2)
    (h : (object tag as).chars ++ r = (object tag' bs).chars ++ s) :
    DeepEqual (.object tag as) (.object tag' bs) ∧ r = s := by
  obtain ⟨htag, hplain⟩ := List.forall_mem_cons.mp hv.isPlain
  obtain ⟨htag', hplain'⟩ := List.forall_mem_cons.mp hw.isPlain
  have hkey : ∀ field ∈ as, field.1.isPlain = true := List.forall_mem_map.mp hplain
  have hkey' : ∀ field ∈ bs, field.1.isPlain = true := List.forall_mem_map.mp hplain'
  simp only [chars_object, List.cons_append, List.append_assoc, List.cons.injEq, true_and,
    List.nil_append] at h
  obtain ⟨htags, hbody⟩ := run_append_inj (isNameChar_of_mem_tagChars htag)
    (isNameChar_of_mem_tagChars htag') (Literal.not_head_cons (by decide) _)
    (Literal.not_head_cons (by decide) _) h
  obtain rfl : tag = tag' := tagChars_inj htag htag' htags
  have hleads : ∀ field, field ∈ as ∨ field ∈ bs →
      ∃ c more, fieldChars field = c :: more ∧ c ≠ '\x7d' := by
    rintro field (hfield | hfield)
    · exact exists_fieldChars_ne_close (hkey field hfield)
    · exact exists_fieldChars_ne_close (hkey' field hfield)
  obtain ⟨hfields, hrest⟩ := forall₂_of_joined (Or.inr rfl) hleads
    (fun a ha b hb => toldBy_field (hkey a ha) (hkey' b hb) (htold a ha b hb))
    (List.cons.inj hbody).2
  exact ⟨deepEqual_object_of_forall₂ hw.built.of_object.1 hfields, hrest⟩

/-- The text of a legible value tells the value and where the text ends. -/
theorem Legible.toldBy {v w : Value} (hv : Legible v) (hw : Legible w) :
    ToldBy chars DeepEqual v w := by
  induction v generalizing w with
  | list as ih =>
    intro r s hr hs h
    cases sameSort_of_chars hv.floatFree hw.floatFree h with
    | list _ bs =>
      simp only [chars_list, List.cons_append, List.append_assoc, List.cons.injEq, true_and,
        List.nil_append] at h
      obtain ⟨hitems, hrest⟩ := forall₂_of_joined_chars (Or.inl rfl) hv.of_list hw.of_list
        (fun a ha b hb => ih a ha (hv.of_list a ha) (hw.of_list b hb)) h
      exact ⟨(EqualParts.list hitems).deepEqual, hrest⟩
  | tuple as ih =>
    intro r s hr hs h
    cases sameSort_of_chars hv.floatFree hw.floatFree h with
    | tuple _ bs =>
      simp only [chars_tuple, List.cons_append, List.append_assoc, List.cons.injEq, true_and,
        List.nil_append] at h
      obtain ⟨hitems, hrest⟩ := forall₂_of_joined_chars (Or.inr rfl) hv.of_tuple hw.of_tuple
        (fun a ha b hb => ih a ha (hv.of_tuple a ha) (hw.of_tuple b hb)) h
      exact ⟨(EqualParts.tuple hitems).deepEqual, hrest⟩
  | object tag as ih =>
    intro r s hr hs h
    cases sameSort_of_chars hv.floatFree hw.floatFree h with
    | object _ tag' _ bs =>
      exact hv.object_told hw
        (fun a ha b hb => ih a ha (hv.of_object a ha) (hw.of_object b hb)) h
  | nil | bool | int | float | atom | str | bitstring => exact hv.toldBy_leaf hw rfl

/-- Legible values with the same text are equal. -/
theorem Legible.deepEqual_of_text_eq {v w : Value} (hv : Legible v) (hw : Legible w)
    (h : v.text = w.text) : DeepEqual v w := by
  have hchars : v.chars ++ [] = w.chars ++ [] := by rw [chars, chars, h]
  exact (hv.toldBy hw [] [] endsItem_nil endsItem_nil hchars).1

end Value

end ClauseMatch
