import ClauseMatch.Proofs.Literal.IntegerSpelling
import ClauseMatch.Proofs.Literal.QuotedText

/-!
# Texts that show where they end

A number or a name ends where its characters do, a quoted text at its closing quote and a sequence
at its closing brackets. So when two longer texts begin with such a text each and are equal, the two
beginnings are equal as well, and so is what follows them. The same goes for texts joined by commas
up to a closing bracket if it goes for each of them.
-/

namespace ClauseMatch

variable {r s : List Char}

/-- What comes after an item: nothing, a comma or a closing bracket. -/
def EndsItem (rest : List Char) : Prop := ∀ c ∈ rest.head?, c = ',' ∨ c = ']' ∨ c = '\x7d'

theorem endsItem_nil : EndsItem [] := by
  intro c hc
  simp at hc

theorem EndsItem.not_head {p : Char → Bool} (h : EndsItem r)
    (hp : p ',' = false ∧ p ']' = false ∧ p '\x7d' = false) : ∀ c ∈ r.head?, p c = false := by
  intro c hc
  rcases h c hc with rfl | rfl | rfl
  · exact hp.1
  · exact hp.2.1
  · exact hp.2.2

/-- Where two items are followed by what may follow items and the whole texts are equal, the items
are related and are followed by the same. -/
def ToldBy {α : Type} (text : α → List Char) (R : α → α → Prop) (a b : α) : Prop :=
  ∀ r s, EndsItem r → EndsItem s → text a ++ r = text b ++ s → R a b ∧ r = s

/-! ## Sequences -/

theorem Literal.LiteralAt.unique {source rest rest' : List Char} {segments segments' : List Segment}
    (h : LiteralAt source segments rest) (h' : LiteralAt source segments' rest') :
    segments = segments' ∧ rest = rest' := by
  have hread := readLiteral_eq_ok_iff.mpr ⟨_, .refl _, h⟩
  have hread' := readLiteral_eq_ok_iff.mpr ⟨_, .refl _, h'⟩
  exact Prod.mk.inj (Except.ok.inj (hread.symm.trans hread'))

/-- A sequence is a literal, and a literal shows where it ends. -/
theorem sequenceText_append_inj {values values' : List Int64}
    (h : (sequenceText values).toList ++ r = (sequenceText values').toList ++ s) :
    values = values' ∧ r = s := by
  have hleft := Literal.literalAt_sequenceText values r
  have hright := Literal.literalAt_sequenceText values' s
  rw [← h] at hright
  obtain ⟨hsegments, hrest⟩ := hleft.unique hright
  refine ⟨List.map_injective_iff.mpr ?_ hsegments, hrest⟩
  intro n m hnm
  exact SegmentValue.integer.inj (congrArg Segment.value hnm)

/-- An integer is told by its decimal text, as it is inside a sequence. -/
theorem intText_inj {n m : Int64} (h : toString n.toInt = toString m.toInt) : n = m := by
  have hsequence : sequenceText [n] = sequenceText [m] := by
    rw [sequenceText, sequenceText, List.map_singleton, List.map_singleton, h]
  have hvalues : [n] = [m] := (sequenceText_append_inj (r := []) (s := []) (by rw [hsequence])).1
  exact (List.cons.inj hvalues).1

/-! ## Numbers and names -/

theorem Literal.LongestRun.unique {p : Char → Bool} {source run run' rest rest' : List Char}
    (h : LongestRun p source run rest) (h' : LongestRun p source run' rest') :
    run = run' ∧ rest = rest' :=
  ⟨h.takeWhile_eq.symm.trans h'.takeWhile_eq, h.dropWhile_eq.symm.trans h'.dropWhile_eq⟩

/-- A run of characters of one class ends before the first character outside it. -/
theorem run_append_inj {p : Char → Bool} {run run' : List Char} (hrun : ∀ c ∈ run, p c = true)
    (hrun' : ∀ c ∈ run', p c = true) (hr : ∀ c ∈ r.head?, p c = false)
    (hs : ∀ c ∈ s.head?, p c = false) (h : run ++ r = run' ++ s) : run = run' ∧ r = s := by
  have hleft : Literal.LongestRun p (run ++ r) run r := ⟨rfl, hrun, hr⟩
  have hright : Literal.LongestRun p (run ++ r) run' s := ⟨h, hrun', hs⟩
  exact hleft.unique hright

/-- Whether a character occurs in decimal integers. -/
def isIntChar (c : Char) : Bool := c == '-' || c.isDigit

theorem isIntChar_of_mem_intText {n : Int} {c : Char} (h : c ∈ (toString n).toList) :
    isIntChar c = true := by
  rw [Literal.toList_toString_int, List.mem_append] at h
  rcases h with hsign | hdigit
  · obtain rfl : c = '-' := by
      cases hnegative : decide (n < 0) with
      | true => simpa [hnegative, Literal.signChars] using hsign
      | false => simp [hnegative, Literal.signChars] at hsign
    rfl
  · simp [isIntChar, Literal.isDigit_of_mem_toDigits hdigit]

theorem toldBy_intText (n m : Int64) : ToldBy (fun n => (toString n.toInt).toList) Eq n m := by
  intro r s hr hs h
  obtain ⟨htext, hrest⟩ := run_append_inj (p := isIntChar) (fun _ => isIntChar_of_mem_intText)
    (fun _ => isIntChar_of_mem_intText) (hr.not_head (by decide)) (hs.not_head (by decide)) h
  exact ⟨intText_inj (String.toList_inj.mp htext), hrest⟩

/-! ## Texts between quotes -/

theorem Literal.spells_toDigits {base : Nat} (hbase : 1 < base) (n : Nat) :
    Spells base (Nat.toDigits base n) n := by
  induction n using Nat.strongRecOn with
  | ind n ih =>
    by_cases hn : n < base
    · have hdigit : Spells base ([] ++ [Nat.digitChar n]) (0 * base + n) :=
        .digit .nil hn (Or.inl rfl)
      rw [Nat.toDigits_of_lt_base hn]
      simpa using hdigit
    · have hdigit := Spells.digit (ih (n / base) (Nat.div_lt_self (by omega) hbase))
        (Nat.mod_lt n (by omega)) (Or.inl rfl)
      rw [Nat.toDigits_of_base_le hbase (by omega)]
      rwa [Nat.div_add_mod'] at hdigit

theorem Literal.toDigits_inj {base n m : Nat} (hbase : 1 < base) (hbase' : base ≤ 16)
    (h : Nat.toDigits base n = Nat.toDigits base m) : n = m := by
  have hn := (spells_toDigits hbase n).natOfDigits_eq hbase'
  have hm := (spells_toDigits hbase m).natOfDigits_eq hbase'
  rw [← hn, ← hm, h]

theorem codePointEscape_append_inj {c d : Char}
    (h : codePointEscape c ++ r = codePointEscape d ++ s) : c = d ∧ r = s := by
  have hdigit (n : Nat) : ∀ x ∈ Nat.toDigits 16 n, (x != '\x7d') = true := by
    intro x hx
    obtain ⟨k, rfl⟩ := Literal.exists_digitChar_of_mem_toDigits (by decide) hx
    exact bne_iff_ne.mpr (Nat.digitChar_ne '\x7d' (by decide))
  simp only [codePointEscape, List.cons_append, List.append_assoc, List.cons.injEq, true_and,
    List.nil_append] at h
  obtain ⟨hdigits, hrest⟩ := run_append_inj (hdigit _) (hdigit _)
    (Literal.not_head_cons (by decide) _) (Literal.not_head_cons (by decide) _) h
  have hcode : c.toNat = d.toNat := Literal.toDigits_inj (by decide) (by decide) hdigits
  exact ⟨Char.toNat_inj.mp hcode, (List.cons.inj hrest).2⟩

theorem Literal.Escape.unique {x c d : Char} (h : Escape x c) (h' : Escape x d) : c = d := by
  cases h with
  | itself hx =>
    cases h' with
    | itself => rfl
    | lineFeed | tab | carriageReturn | null => exact absurd hx (by decide)
  | lineFeed | tab | carriageReturn | null =>
    cases h' with
    | itself hx => exact absurd hx (by decide)
    | _ => rfl

/-- The way a character is written tells the character and where it ends. -/
theorem quotedChar_append_inj {c d : Char} (h : quotedChar c ++ r = quotedChar d ++ s) :
    c = d ∧ r = s := by
  have hc := Literal.writtenAs_quotedChar c
  have hd := Literal.writtenAs_quotedChar d
  generalize quotedChar c = written at hc h
  generalize quotedChar d = written' at hd h
  cases hc with
  | itself _ hslash =>
    cases hd with
    | itself => exact List.cons.inj h
    | escape | codePoint => exact absurd (List.cons.inj h).1 hslash
  | escape hletter hescape =>
    cases hd with
    | itself _ hslash => exact absurd (List.cons.inj h).1.symm hslash
    | escape _ hescape' =>
      obtain ⟨rfl, hrest⟩ := List.cons.inj (List.cons.inj h).2
      exact ⟨hescape.unique hescape', hrest⟩
    | codePoint =>
      obtain ⟨rfl, -⟩ := List.cons.inj (List.cons.inj h).2
      exact absurd hletter (by decide)
  | codePoint =>
    cases hd with
    | itself _ hslash => exact absurd (List.cons.inj h).1.symm hslash
    | escape hletter _ =>
      obtain ⟨rfl, -⟩ := List.cons.inj (List.cons.inj h).2
      exact absurd hletter (by decide)
    | codePoint => exact codePointEscape_append_inj h

theorem quotedChar_append_ne_quote (c : Char) (r s : List Char) : quotedChar c ++ r ≠ '"' :: s := by
  have hc := Literal.writtenAs_quotedChar c
  intro h
  generalize quotedChar c = written at hc h
  cases hc with
  | itself hquote _ => exact hquote (List.cons.inj h).1
  | escape | codePoint => exact absurd (List.cons.inj h).1 (by decide)

theorem flatMap_quotedChar_append_inj {cs ds : List Char}
    (h : cs.flatMap quotedChar ++ '"' :: r = ds.flatMap quotedChar ++ '"' :: s) :
    cs = ds ∧ r = s := by
  induction cs generalizing ds with
  | nil =>
    cases ds with
    | nil => exact ⟨rfl, (List.cons.inj h).2⟩
    | cons d ds =>
      rw [List.flatMap_cons, List.append_assoc] at h
      exact absurd h.symm (quotedChar_append_ne_quote d _ _)
  | cons c cs ih =>
    rw [List.flatMap_cons, List.append_assoc] at h
    cases ds with
    | nil => exact absurd h (quotedChar_append_ne_quote c _ _)
    | cons d ds =>
      rw [List.flatMap_cons, List.append_assoc] at h
      obtain ⟨rfl, hmore⟩ := quotedChar_append_inj h
      obtain ⟨rfl, hrest⟩ := ih hmore
      exact ⟨rfl, hrest⟩

theorem quoted_append_inj {text text' : String}
    (h : (quoted text).toList ++ r = (quoted text').toList ++ s) : text = text' ∧ r = s := by
  simp only [quoted, String.toList_ofList, List.cons_append, List.append_assoc, List.cons.injEq,
    true_and, List.nil_append] at h
  obtain ⟨hchars, hrest⟩ := flatMap_quotedChar_append_inj h
  exact ⟨String.toList_inj.mp hchars, hrest⟩

/-! ## Items joined by commas -/

section

variable {α : Type} {text : α → List Char} {R : α → α → Prop} {as bs : List α} {close : Char}

theorem intercalate_map_cons (a : α) (as : List α) :
    [',', ' '].intercalate ((a :: as).map text) =
      text a ++ as.flatMap fun b => ',' :: ' ' :: text b := by
  induction as generalizing a with
  | nil => simp
  | cons b as ih =>
    rw [List.map_cons, List.map_cons, List.intercalate_cons_cons, ← List.map_cons, ih,
      List.flatMap_cons]
    simp

theorem endsItem_close (hclose : close = ']' ∨ close = '\x7d') (r : List Char) :
    EndsItem (close :: r) := by
  intro c hc
  obtain rfl : close = c := by simpa using hc
  exact Or.inr hclose

theorem endsItem_more (hclose : close = ']' ∨ close = '\x7d') (as : List α) (r : List Char) :
    EndsItem ((as.flatMap fun a => ',' :: ' ' :: text a) ++ close :: r) := by
  cases as with
  | nil => exact endsItem_close hclose r
  | cons a as =>
    intro c hc
    exact Or.inl (by simpa using hc.symm)

theorem forall₂_of_more (hclose : close = ']' ∨ close = '\x7d')
    (hitems : ∀ a ∈ as, ∀ b ∈ bs, ToldBy text R a b)
    (h : (as.flatMap fun a => ',' :: ' ' :: text a) ++ close :: r =
      (bs.flatMap fun b => ',' :: ' ' :: text b) ++ close :: s) :
    List.Forall₂ R as bs ∧ r = s := by
  have hcomma : close ≠ ',' := by rcases hclose with rfl | rfl <;> decide
  induction as generalizing bs with
  | nil =>
    cases bs with
    | nil => exact ⟨.nil, (List.cons.inj h).2⟩
    | cons b bs => exact absurd (List.cons.inj h).1 hcomma
  | cons a as ih =>
    cases bs with
    | nil => exact absurd (List.cons.inj h).1.symm hcomma
    | cons b bs =>
      simp only [List.flatMap_cons, List.cons_append, List.append_assoc, List.cons.injEq,
        true_and] at h
      obtain ⟨hab, hmore⟩ := hitems a List.mem_cons_self b List.mem_cons_self _ _
        (endsItem_more hclose as r) (endsItem_more hclose bs s) h
      have hitems' : ∀ a' ∈ as, ∀ b' ∈ bs, ToldBy text R a' b' := fun a' ha' b' hb' =>
        hitems a' (List.mem_cons_of_mem a ha') b' (List.mem_cons_of_mem b hb')
      obtain ⟨hrelated, hrest⟩ := ih hitems' hmore
      exact ⟨.cons hab hrelated, hrest⟩

/-- Joined items are told by their text if each of them is and none begins like the closing
bracket. -/
theorem forall₂_of_joined (hclose : close = ']' ∨ close = '\x7d')
    (hleads : ∀ a, a ∈ as ∨ a ∈ bs → ∃ c more, text a = c :: more ∧ c ≠ close)
    (hitems : ∀ a ∈ as, ∀ b ∈ bs, ToldBy text R a b)
    (h : [',', ' '].intercalate (as.map text) ++ close :: r =
      [',', ' '].intercalate (bs.map text) ++ close :: s) :
    List.Forall₂ R as bs ∧ r = s := by
  cases as with
  | nil =>
    cases bs with
    | nil => exact ⟨.nil, (List.cons.inj h).2⟩
    | cons b bs =>
      obtain ⟨c, more, hb, hc⟩ := hleads b (Or.inr List.mem_cons_self)
      rw [intercalate_map_cons, hb] at h
      exact absurd (List.cons.inj h).1.symm hc
  | cons a as =>
    cases bs with
    | nil =>
      obtain ⟨c, more, ha, hc⟩ := hleads a (Or.inl List.mem_cons_self)
      rw [intercalate_map_cons, ha] at h
      exact absurd (List.cons.inj h).1 hc
    | cons b bs =>
      -- With a comma before them the first items are items like all others.
      have hmore := congrArg ([',', ' '] ++ ·) h
      simp only [intercalate_map_cons] at hmore
      exact forall₂_of_more hclose hitems (by simpa using hmore)

end

end ClauseMatch
