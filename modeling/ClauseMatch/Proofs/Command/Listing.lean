import ClauseMatch.Command.Run
import ClauseMatch.Proofs.Bitstring.SingleLine
import ClauseMatch.Proofs.Command.Outcome

/-!
# The listing of segments

A listing puts a line for each segment before the encoded sequence: its place, its text, and what it
is printed as by itself. Segments encode one by one, and bytes are bytes whichever segment they come
from, so the segments are printed one by one exactly if they are printed together; hence the listing
adds its lines and takes nothing away. None of its parts holds a line break, so the lines of the
output are the ones that were put there.
-/

namespace ClauseMatch.Command

open Literal (EncodesTo)

variable {format : OutputFormat} {segments : List Segment} {out listing : String} {place : Nat}

/-! ## Entries -/

/-- A segment in a listing, what it encodes to by itself, and what this is printed as. -/
structure Entry where
  segment : Segment
  bits : Bitstring
  shown : String

namespace Entry

/-- The line of an entry at its place in a listing. -/
def line (e : Entry) (place : Nat) : String :=
  toString place ++ ": " ++ e.segment.text ++ " => " ++ e.shown

/-- The lines of entries, whose places are counted from the given one. -/
def lines (place : Nat) (entries : List Entry) : List String :=
  (entries.zipIdx place).map fun e => e.1.line e.2

/-- The segment is encoded and printed by itself. -/
structure Printed (format : OutputFormat) (e : Entry) : Prop where
  encoded : Bitstring.ofSegments [e.segment] = .ok e.bits
  rendered : render format e.bits = .ok e.shown

end Entry

open Entry (lines)

/-- The entries are those of the segments, in order. -/
structure Listed (format : OutputFormat) (segments : List Segment) (entries : List Entry) :
    Prop where
  segments : entries.map (·.segment) = segments
  printed : ∀ e ∈ entries, e.Printed format

variable {entries : List Entry}

theorem Listed.nil : Listed format [] [] := ⟨rfl, List.forall_mem_nil _⟩

theorem listed_cons_iff {s : Segment} :
    Listed format (s :: segments) entries ↔
      ∃ e rest, entries = e :: rest ∧ e.segment = s ∧ e.Printed format ∧
        Listed format segments rest := by
  constructor
  · rintro ⟨hsegments, hprinted⟩
    obtain ⟨e, rest, rfl, hsegment, hrest⟩ := List.map_eq_cons_iff.mp hsegments
    obtain ⟨he, hothers⟩ := List.forall_mem_cons.mp hprinted
    exact ⟨e, rest, rfl, hsegment, he, hrest, hothers⟩
  · rintro ⟨e, rest, rfl, rfl, he, hrest⟩
    exact ⟨congrArg (e.segment :: ·) hrest.segments, List.forall_mem_cons.mpr ⟨he, hrest.printed⟩⟩

theorem Listed.alone (h : Listed format segments entries) :
    Bitstring.Alone segments (entries.map (·.bits)) := by
  rw [← h.segments, Bitstring.Alone, List.forall₂_map_left_iff, List.forall₂_map_right_iff,
    List.forall₂_same]
  exact fun e he => (h.printed e he).encoded

theorem exists_listed_of_alone {parts : List Bitstring} (h : Bitstring.Alone segments parts)
    (hbytes : format = .hex → ∀ part ∈ parts, ∀ v ∈ part.values, IsByte v) :
    ∃ entries, Listed format segments entries := by
  induction h with
  | nil => exact ⟨[], .nil⟩
  | @cons s part segments parts hpart _ ih =>
    obtain ⟨shown, hshown⟩ := exists_render_iff.mpr fun hhex =>
      hbytes hhex part List.mem_cons_self
    obtain ⟨entries, hentries⟩ := ih fun hhex other hother =>
      hbytes hhex other (List.mem_cons_of_mem part hother)
    exact ⟨⟨s, part, shown⟩ :: entries,
      listed_cons_iff.mpr ⟨_, entries, rfl, rfl, ⟨hpart, hshown⟩, hentries⟩⟩

/-! ## Printed one by one, and printed together -/

/-- Segments that are printed by themselves encode together to their elements, in order. -/
theorem Listed.ofSegments_eq (h : Listed format segments entries) :
    Bitstring.ofSegments segments = .ok ⟨segments, entries.flatMap (·.bits.values)⟩ := by
  have hvalues : entries.flatMap (·.bits.values) = (entries.map (·.bits)).flatMap (·.values) :=
    (List.flatMap_map (·.bits) (·.values) entries).symm
  rw [hvalues]
  exact Bitstring.ofSegments_eq_ok_iff.mpr ⟨rfl, _, h.alone, rfl, List.length_flatMap⟩

theorem Listed.isByte (h : Listed .hex segments entries) :
    ∀ v ∈ entries.flatMap (·.bits.values), IsByte v := by
  intro v hv
  obtain ⟨e, he, hmem⟩ := List.mem_flatMap.mp hv
  exact exists_render_iff.mp ⟨e.shown, (h.printed e he).rendered⟩ rfl v hmem

theorem encodeSegments_unlisted_eq_ok_iff :
    encodeSegments ⟨format, false⟩ segments = .ok out ↔
      ∃ bits, Bitstring.ofSegments segments = .ok bits ∧ render format bits = .ok out := by
  rw [encodeSegments_unlisted]
  cases Bitstring.ofSegments segments <;> simp [Except.bind]

theorem Listed.exists_printed (h : Listed format segments entries) :
    ∃ plain, encodeSegments ⟨format, false⟩ segments = .ok plain := by
  obtain ⟨plain, hplain⟩ : ∃ plain,
      render format ⟨segments, entries.flatMap (·.bits.values)⟩ = .ok plain := by
    refine exists_render_iff.mpr fun hhex => ?_
    subst hhex
    exact h.isByte
  exact ⟨plain, encodeSegments_unlisted_eq_ok_iff.mpr ⟨_, h.ofSegments_eq, hplain⟩⟩

theorem exists_listed_of_printed {plain : String}
    (h : encodeSegments ⟨format, false⟩ segments = .ok plain) :
    ∃ entries, Listed format segments entries := by
  obtain ⟨bits, hbits, hplain⟩ := encodeSegments_unlisted_eq_ok_iff.mp h
  obtain ⟨-, parts, hparts, hvalues, -⟩ := Bitstring.ofSegments_eq_ok_iff.mp hbits
  refine exists_listed_of_alone hparts fun hhex part hpart v hv => ?_
  have hmem : v ∈ bits.values := hvalues ▸ List.mem_flatMap.mpr ⟨part, hpart, hv⟩
  exact exists_render_iff.mp ⟨plain, hplain⟩ hhex v hmem

/-! ## Writing the listing -/

/-- The line of a segment shows what the segment is printed as by itself. -/
theorem segmentLine_eq (format : OutputFormat) (place : Nat) (s : Segment) :
    segmentLine format place s = (encodeSegments ⟨format, false⟩ [s]).map fun shown =>
      toString place ++ ": " ++ s.text ++ " => " ++ shown ++ "\n" := by
  have hsteps : segmentLine format place s =
      (Bitstring.ofSegments [s]).bind fun bits => (render format bits).bind fun shown =>
        .ok (toString place ++ ": " ++ s.text ++ " => " ++ shown ++ "\n") := rfl
  rw [hsteps, encodeSegments_unlisted]
  cases hbits : Bitstring.ofSegments [s] with
  | error cause => rfl
  | ok bits => cases hshown : render format bits <;> simp [Except.bind, Except.map, hshown]

theorem Entry.Printed.segmentLine_eq {e : Entry} (h : e.Printed format) (place : Nat) :
    segmentLine format place e.segment = .ok (e.line place ++ "\n") := by
  rw [Command.segmentLine_eq,
    encodeSegments_unlisted_eq_ok_iff.mpr ⟨e.bits, h.encoded, h.rendered⟩]
  rfl

theorem exists_printed_of_segmentLine {s : Segment} {line : String}
    (h : segmentLine format place s = .ok line) :
    ∃ e : Entry, e.segment = s ∧ e.Printed format := by
  rw [segmentLine_eq] at h
  obtain ⟨shown, hshown, -⟩ := map_eq_ok_iff.mp h
  obtain ⟨bits, hbits, hrendered⟩ := encodeSegments_unlisted_eq_ok_iff.mp hshown
  exact ⟨⟨s, bits, shown⟩, rfl, hbits, hrendered⟩

/-- A listing is written if all segments are printed by themselves, and then has their lines. -/
theorem listSegments_eq_ok_iff :
    listSegments format place segments out = .ok listing ↔
      ∃ entries, Listed format segments entries ∧
        out ++ unlines (lines place entries) = listing := by
  induction segments generalizing place out with
  | nil =>
    have hnone {entries : List Entry} : Listed format [] entries ↔ entries = [] := by
      constructor
      · exact fun h => List.map_eq_nil_iff.mp h.segments
      · rintro rfl
        exact .nil
    have hempty : unlines (lines place []) = "" := rfl
    simp [listSegments, hnone, hempty]
  | cons s segments ih =>
    have hlines (e : Entry) (rest : List Entry) : out ++ unlines (lines place (e :: rest)) =
        out ++ (e.line place ++ "\n") ++ unlines (lines (place + 1) rest) := by
      simp [unlines, lines, List.zipIdx_cons, String.join_cons, String.append_assoc]
    constructor
    · intro h
      rw [listSegments] at h
      cases hline : segmentLine format place s with
      | error cause =>
        rw [hline] at h
        cases h
      | ok line =>
        obtain ⟨e, rfl, he⟩ := exists_printed_of_segmentLine hline
        obtain rfl := Except.ok.inj ((he.segmentLine_eq place).symm.trans hline)
        rw [hline] at h
        obtain ⟨rest, hrest, rfl⟩ := ih.mp h
        exact ⟨e :: rest, listed_cons_iff.mpr ⟨e, rest, rfl, rfl, he, hrest⟩, hlines e rest⟩
    · rintro ⟨entries, hlisted, rfl⟩
      obtain ⟨e, rest, rfl, rfl, he, hrest⟩ := listed_cons_iff.mp hlisted
      rw [listSegments, he.segmentLine_eq place]
      exact ih.mpr ⟨rest, hrest, (hlines e rest).symm⟩

theorem encodeSegments_listed (format : OutputFormat) (segments : List Segment) :
    encodeSegments ⟨format, true⟩ segments =
      (listSegments format 0 segments "").bind fun listing =>
        (encodeSegments ⟨format, false⟩ segments).map (listing ++ ·) := by
  have hsteps : encodeSegments ⟨format, true⟩ segments =
      (listSegments format 0 segments "").bind fun listing =>
        (Bitstring.ofSegments segments).bind fun bits =>
          (render format bits).bind fun shown => .ok (listing ++ shown) := rfl
  rw [hsteps, encodeSegments_unlisted]
  cases listSegments format 0 segments "" with
  | error cause => rfl
  | ok listing =>
    cases hbits : Bitstring.ofSegments segments with
    | error cause => rfl
    | ok bits =>
      cases hshown : render format bits <;> simp [Except.bind, Except.map, hshown]

/-- Segments are listed before they are printed together, which cannot fail any more. -/
theorem encodeSegments_listed_eq_ok_iff :
    encodeSegments ⟨format, true⟩ segments = .ok out ↔
      ∃ entries plain, Listed format segments entries ∧
        encodeSegments ⟨format, false⟩ segments = .ok plain ∧
        unlines (lines 0 entries) ++ plain = out := by
  rw [encodeSegments_listed]
  constructor
  · intro h
    cases hlisting : listSegments format 0 segments "" with
    | error cause =>
      rw [hlisting] at h
      cases h
    | ok listing =>
      rw [hlisting, Except.bind, map_eq_ok_iff] at h
      obtain ⟨plain, hplain, rfl⟩ := h
      obtain ⟨entries, hlisted, rfl⟩ := listSegments_eq_ok_iff.mp hlisting
      exact ⟨entries, plain, hlisted, hplain, by rw [String.empty_append]⟩
  · rintro ⟨entries, plain, hlisted, hplain, rfl⟩
    have hlisting : listSegments format 0 segments "" = .ok (unlines (lines 0 entries)) :=
      listSegments_eq_ok_iff.mpr ⟨entries, hlisted, String.empty_append⟩
    rw [hlisting, Except.bind, hplain]
    rfl

/-! ## Lines -/

/-- The lines of an output: what stands between its line breaks. -/
def outputLines (out : String) : List String := (out.toList.splitOn '\n').map String.ofList

theorem outputLines_append {listed : List String} {last : String}
    (hlisted : ∀ line ∈ listed, SingleLine line.toList) (hlast : SingleLine last.toList) :
    outputLines (unlines listed ++ last) = listed ++ [last] := by
  have hchars : (unlines listed ++ last).toList =
      ['\n'].intercalate ((listed ++ [last]).map String.toList) := by
    induction listed with
    | nil => simp [unlines]
    | cons line listed ih =>
      have hbreak : (unlines (line :: listed) ++ last).toList =
          line.toList ++ '\n' :: (unlines listed ++ last).toList := by
        simp [unlines, String.join_cons]
      have hnext := List.forall_mem_cons.mp hlisted
      rw [hbreak, ih hnext.2]
      cases listed <;> simp [List.intercalate_cons_cons]
  have hall : ∀ line ∈ (listed ++ [last]).map String.toList, '\n' ∉ line :=
    List.forall_mem_map.mpr (List.forall_mem_append.mpr
      ⟨hlisted, List.forall_mem_singleton.mpr hlast⟩)
  rw [outputLines, hchars, List.splitOn_intercalate '\n' hall (by simp), List.map_map]
  have hrestore : String.ofList ∘ String.toList = id := funext fun _ => String.ofList_toList
  rw [hrestore, List.map_id]

theorem singleLine_of_render {bits : Bitstring} (h : render format bits = .ok out) :
    SingleLine out.toList := by
  cases format with
  | decimal =>
    obtain rfl := Except.ok.inj h
    exact singleLine_sequenceText bits.values
  | hex =>
    obtain ⟨bytes, -, rfl⟩ := map_eq_ok_iff.mp h
    rw [String.toList_intercalate, List.map_map]
    refine .intercalate (by decide) (List.forall_mem_map.mpr fun byte _ => ?_)
    have hdigit (d : Nat) : Nat.digitChar d ≠ '\n' := Nat.digitChar_ne '\n' (by decide)
    rw [Function.comp_apply, toList_hexByte]
    exact .cons (hdigit _) (.cons (hdigit _) .nil)

theorem Entry.Printed.singleLine_line {e : Entry} (h : e.Printed format) (place : Nat) :
    SingleLine (e.line place).toList := by
  simp only [Entry.line, String.toList_append]
  exact ((((singleLine_natText place).append (by decide)).append e.segment.singleLine_text).append
    (by decide)).append (singleLine_of_render h.rendered)

theorem Listed.singleLine_lines (h : Listed format segments entries) :
    ∀ line ∈ lines place entries, SingleLine line.toList := by
  intro line hline
  obtain ⟨⟨e, i⟩, he, rfl⟩ := List.mem_map.mp hline
  exact (h.printed e (List.fst_mem_of_mem_zipIdx he)).singleLine_line i

/-! ## What the lines say -/

/-- A printed text spells elements: in decimal it is a literal that encodes to them, and in
hexadecimal it has two digits for each of them. -/
def Spells : OutputFormat → String → List Int64 → Prop
  | .decimal, shown, values => EncodesTo shown values
  | .hex, shown, values => hexElements? shown = some values

theorem spells_of_render {bits : Bitstring} (h : render format bits = .ok out) :
    Spells format out bits.values := by
  cases format with
  | decimal =>
    obtain rfl := Except.ok.inj h
    exact ⟨_, _, Literal.parse_sequenceText bits.values, ofSegments_integers bits.values, rfl⟩
  | hex => exact hexElements?_of_render h

theorem encodeLiteral_of_parse {source : String} (hparse : Literal.parse source = .ok segments)
    (config : EncodeConfig) :
    encodeLiteral config source = (encodeSegments config segments).mapError .encode := by
  simp only [encodeLiteral, hparse]

/-- A listing changes nothing about whether a source is printed. If it is, then the output has one
line more than the source has segments: a line for every segment, in order, with its place, its text
and what it is printed as by itself, and then the line that is printed without a listing. What this
last line spells are the elements that the lines before it spell, one after the other. -/
theorem listing_adds_a_line_for_each_segment (format : OutputFormat) (source : String) :
    ((∃ out, encodeLiteral ⟨format, true⟩ source = .ok out) ↔
      ∃ plain, encodeLiteral ⟨format, false⟩ source = .ok plain) ∧
    ∀ segments out plain, Literal.parse source = .ok segments →
      encodeLiteral ⟨format, true⟩ source = .ok out →
      encodeLiteral ⟨format, false⟩ source = .ok plain →
      (outputLines out).length = segments.length + 1 ∧
      ∃ entries, Listed format segments entries ∧
        outputLines out = lines 0 entries ++ [plain] ∧
        (∀ e ∈ entries, Spells format e.shown e.bits.values) ∧
        Spells format plain (entries.flatMap (·.bits.values)) := by
  constructor
  · cases hparse : Literal.parse source with
    | error e => simp [encodeLiteral, hparse]
    | ok segments =>
      simp only [encodeLiteral_of_parse hparse, mapError_eq_ok_iff]
      constructor
      · rintro ⟨out, hout⟩
        obtain ⟨-, plain, -, hplain, -⟩ := encodeSegments_listed_eq_ok_iff.mp hout
        exact ⟨plain, hplain⟩
      · rintro ⟨plain, hplain⟩
        obtain ⟨entries, hlisted⟩ := exists_listed_of_printed hplain
        exact ⟨_, encodeSegments_listed_eq_ok_iff.mpr ⟨entries, plain, hlisted, hplain, rfl⟩⟩
  · intro segments out plain hparse hout hplain
    rw [encodeLiteral_of_parse hparse, mapError_eq_ok_iff] at hout hplain
    obtain ⟨entries, plain', hlisted, hplain', rfl⟩ := encodeSegments_listed_eq_ok_iff.mp hout
    obtain rfl := Except.ok.inj (hplain.symm.trans hplain')
    obtain ⟨bits, hbits, hrendered⟩ := encodeSegments_unlisted_eq_ok_iff.mp hplain
    obtain rfl := Except.ok.inj (hlisted.ofSegments_eq.symm.trans hbits)
    have hlines : outputLines (unlines (lines 0 entries) ++ plain) = lines 0 entries ++ [plain] :=
      outputLines_append hlisted.singleLine_lines (singleLine_of_render hrendered)
    refine ⟨?_, entries, hlisted, hlines, ?_, spells_of_render hrendered⟩
    · rw [hlines, ← hlisted.segments]
      simp [lines]
    · exact fun e he => spells_of_render (hlisted.printed e he).rendered

/-- A text with a line break in it, listed after a number. -/
theorem listing_adds_a_line_for_each_segment_line_break :
    Literal.parse "<<65::signed, \"A\nB\">>" =
      .ok [(Segment.integer 65).signed, .binary "A\nB"] ∧
    encodeLiteral ⟨.hex, true⟩ "<<65::signed, \"A\nB\">>" =
      .ok "0: 65::integer-signed => 41\n1: \"A\\nB\"::binary => 41 0a 42\n41 41 0a 42" ∧
    encodeLiteral ⟨.hex, false⟩ "<<65::signed, \"A\nB\">>" = .ok "41 41 0a 42" ∧
    ∃ entries, Listed .hex [(Segment.integer 65).signed, .binary "A\nB"] entries ∧
      outputLines "0: 65::integer-signed => 41\n1: \"A\\nB\"::binary => 41 0a 42\n41 41 0a 42" =
        lines 0 entries ++ ["41 41 0a 42"] ∧
      Spells .hex "41 41 0a 42" (entries.flatMap (·.bits.values)) := by
  have hparse : Literal.parse "<<65::signed, \"A\nB\">>" =
      .ok [(Segment.integer 65).signed, .binary "A\nB"] := by with_unfolding_all rfl
  have hlisted : encodeLiteral ⟨.hex, true⟩ "<<65::signed, \"A\nB\">>" =
      .ok "0: 65::integer-signed => 41\n1: \"A\\nB\"::binary => 41 0a 42\n41 41 0a 42" := by
    with_unfolding_all rfl
  have hplain : encodeLiteral ⟨.hex, false⟩ "<<65::signed, \"A\nB\">>" = .ok "41 41 0a 42" := by
    with_unfolding_all rfl
  obtain ⟨-, entries, hentries, hlines, -, hspells⟩ :=
    (listing_adds_a_line_for_each_segment .hex "<<65::signed, \"A\nB\">>").2 _ _ _
      hparse hlisted hplain
  exact ⟨hparse, hlisted, hplain, entries, hentries, hlines, hspells⟩

end ClauseMatch.Command
