import ClauseMatch.Proofs.Literal.Bytes

/-!
# What the steps of the cursor do

A trace is safe if the cursor has been at boundaries of characters only, has never moved back, and
has covered some ground with every call and every segment. The invariant of the reader is that a
safe trace stays safe. It goes together with what is read: a reader *reads* a source as a result of
the reader over lists of characters, from every safe trace at that source, if it comes out with
the same result in a safe trace at the source that remains. This is proved for the single steps
here, and composed along `bind`.
-/

namespace ClauseMatch.Literal

/-- The number of bytes that a successful call takes at least. -/
def Routine.least : Routine → Nat
  | option => 1
  | value => 1
  | segment => 1
  | literal => 4

/-- At this moment the cursor is within the source and between two characters of it; the open
literal calls began at least two bytes apart, and no more segments have been produced than bytes
been passed over. -/
structure Moment.Safe (source : String) (m : Moment) : Prop where
  le_size : m.pos ≤ source.utf8ByteSize
  boundary : String.Pos.Raw.IsValid source ⟨m.pos⟩
  spaced : m.opened.Pairwise fun inner outer => outer + 2 ≤ inner
  opened_le : ∀ start ∈ m.opened, start ≤ m.pos
  produced_le : m.produced ≤ m.pos

/-- Every moment of the trace is safe, the cursor has never moved back, and every call that has
succeeded took at least the bytes it has to take. -/
structure Trace.Safe (source : String) (t : Trace) : Prop where
  moment : ∀ m ∈ t.moments, m.Safe source
  forward : t.moments.Pairwise fun later earlier => earlier.pos ≤ later.pos
  call : ∀ c ∈ t.calls, c.start + c.routine.least ≤ c.stop

namespace Cursor

variable {α β : Type} {source : String} {opened : List Nat} {j k : Nat}
  {rest rest' : List Char} {t : Trace}

/-- The offset from which on `rest` is the source. -/
def offset (source : String) (rest : List Char) : Nat := source.utf8ByteSize - byteLength rest

/-- What remains of the source at the present moment of a trace. -/
structure At (source : String) (rest : List Char) (t : Trace) : Prop where
  suffix : rest <:+ source.toList
  pos : t.now.pos + byteLength rest = source.utf8ByteSize

/-- The end of a run that began with the trace `before` and gave `result`. On the way the cursor
passed over at least `least` bytes more than segments were produced. -/
def EndsAs (source : String) (opened : List Nat) (least : Nat) (before : Trace) :
    Except Failure (α × List Char) → Except Stop α × Trace → Prop
  | .ok (a, rest), (r, after) =>
    r = .ok a ∧ after.now.opened = opened ∧ At source rest after ∧
      before.now.produced ≤ after.now.produced ∧
      before.now.pos + after.now.produced + least ≤ after.now.pos + before.now.produced
  | .error failure, (r, _) => r = .error (.failed (failure.toParseError source.toList))

/-- Inside the open literal calls, the reader reads `rest` as `result`. -/
def Reads (source : String) (opened : List Nat) (least : Nat) (m : CursorM α) (rest : List Char)
    (result : Except Failure (α × List Char)) : Prop :=
  ∀ t : Trace, t.Safe source → t.now.opened = opened → At source rest t →
    ∃ e, m.run.run t = some e ∧ e.2.Safe source ∧ EndsAs source opened least t result e

/-! ## Places -/

theorem byteLength_le (h : rest <:+ source.toList) : byteLength rest ≤ source.utf8ByteSize := by
  obtain ⟨before, hbefore⟩ := h
  rw [← byteLength_toList, ← hbefore, byteLength_append]
  exact Nat.le_add_left ..

theorem At.pos_eq (h : At source rest t) : t.now.pos = offset source rest := by
  have := h.pos
  rw [offset]
  omega

theorem offset_append (h : rest <:+ source.toList) {text : List Char} (htext : rest = text ++ rest') :
    offset source rest + byteLength text = offset source rest' := by
  have hle := byteLength_le h
  rw [htext, byteLength_append] at hle
  rw [offset, offset, htext, byteLength_append]
  omega

theorem At.exists_before (h : At source rest t) :
    ∃ before, source.toList = before ++ rest ∧ t.now.pos = byteLength before := by
  obtain ⟨before, hbefore⟩ := h.suffix
  have hpos := h.pos
  rw [← byteLength_toList, ← hbefore, byteLength_append] at hpos
  exact ⟨before, hbefore.symm, Nat.add_right_cancel hpos⟩

theorem slice?_offset {text : List Char} (h : text ++ rest <:+ source.toList) :
    slice? source (offset source (text ++ rest)) (offset source rest) =
      some (String.ofList text) := by
  obtain ⟨before, hbefore⟩ := h
  have hsize : source.utf8ByteSize = byteLength before + byteLength text + byteLength rest := by
    rw [← byteLength_toList, ← hbefore, byteLength_append, byteLength_append, Nat.add_assoc]
  have hstart : offset source (text ++ rest) = byteLength before := by
    rw [offset, byteLength_append]
    omega
  have hstop : offset source rest = byteLength before + byteLength text := by
    rw [offset]
    omega
  rw [hstart, hstop]
  exact slice?_eq hbefore.symm

theorem toParseError_eq (fault : Fault) (place : List Char) :
    Failure.toParseError source.toList ⟨fault, place⟩ = ⟨fault, offset source place⟩ := by
  rw [Failure.toParseError, offset, byteLength_toList]

/-! ## Safe traces -/

theorem safe_start : Trace.start.Safe source := by
  have hmoment : Moment.Safe source ⟨0, [], 0⟩ := by
    refine ⟨Nat.zero_le _, ?_, .nil, by simp, Nat.le_refl _⟩
    have hempty : source.toList = [] ++ source.toList := rfl
    exact isValid_byteLength hempty
  refine ⟨?_, List.pairwise_singleton .., by simp [Trace.start]⟩
  intro m hm
  rw [List.mem_singleton.mp hm]
  exact hmoment

/-- Passing to a safe moment at no smaller an offset keeps a trace safe. -/
theorem safe_proceed (h : t.Safe source) {next : Moment} (hnext : next.Safe source)
    (hle : t.now.pos ≤ next.pos) : Trace.Safe source ⟨next, t.now :: t.earlier, t.calls⟩ := by
  refine ⟨?_, ?_, h.call⟩
  · intro m hm
    rcases List.mem_cons.mp hm with rfl | hm
    · exact hnext
    · exact h.moment m hm
  · apply List.Pairwise.cons _ h.forward
    intro m hm
    rcases List.mem_cons.mp hm with rfl | hm
    · exact hle
    · exact Nat.le_trans (List.rel_of_pairwise_cons h.forward hm) hle

theorem now_safe (h : t.Safe source) : t.now.Safe source := h.moment t.now (List.mem_cons_self ..)

/-- Moving the cursor over a part of the source keeps a trace safe. -/
theorem safe_moveTo (h : t.Safe source) {text : List Char} (hat : At source (text ++ rest) t) :
    Trace.Safe source ⟨{ t.now with pos := offset source rest }, t.now :: t.earlier, t.calls⟩ := by
  have hpos : t.now.pos + byteLength text = offset source rest := by
    rw [hat.pos_eq]
    exact offset_append hat.suffix rfl
  have hle : t.now.pos ≤ offset source rest := Nat.le.intro hpos
  have hnow := now_safe h
  apply safe_proceed h _ hle
  obtain ⟨before, hbefore, hbefore'⟩ := hat.exists_before
  constructor
  · exact Nat.sub_le ..
  · show String.Pos.Raw.IsValid source ⟨offset source rest⟩
    rw [← hpos, hbefore', ← byteLength_append]
    exact isValid_byteLength (hbefore.trans (List.append_assoc ..).symm)
  · exact hnow.spaced
  · intro start hstart
    exact Nat.le_trans (hnow.opened_le start hstart) hle
  · exact Nat.le_trans hnow.produced_le hle

/-! ## Composing readers -/

theorem run_bind (m : CursorM α) (f : α → CursorM β) (t : Trace) :
    (m >>= f).run.run t = (m.run.run t).bind fun e =>
      match e with
      | (.ok a, after) => (f a).run.run after
      | (.error stop, after) => some (.error stop, after) := by
  show Option.bind _ _ = _
  congr 1
  funext e
  rcases e with ⟨a | stop, after⟩ <;> rfl

theorem run_proceed (next : Moment → Moment) (t : Trace) :
    (proceed next).run.run t = some (.ok (), ⟨next t.now, t.now :: t.earlier, t.calls⟩) := rfl

theorem Reads.of_suffix {m : CursorM α} {result : Except Failure (α × List Char)}
    (h : rest <:+ source.toList → Reads source opened k m rest result) :
    Reads source opened k m rest result := by
  intro t ht hopened hat
  exact h hat.suffix t ht hopened hat

theorem Reads.weaken {m : CursorM α} {result : Except Failure (α × List Char)}
    (h : Reads source opened j m rest result) (hle : k ≤ j) :
    Reads source opened k m rest result := by
  intro t ht hopened hat
  obtain ⟨e, hrun, hsafe, hends⟩ := h t ht hopened hat
  refine ⟨e, hrun, hsafe, ?_⟩
  cases result with
  | error failure => exact hends
  | ok answer =>
    obtain ⟨hvalue, hopened', hat', hproduced, hleast⟩ := hends
    exact ⟨hvalue, hopened', hat', hproduced, by omega⟩

theorem Reads.pure (a : α) : Reads source opened 0 (Pure.pure a) rest (.ok (a, rest)) := by
  intro t ht hopened hat
  exact ⟨(.ok a, t), rfl, ht, rfl, hopened, hat, Nat.le_refl _, Nat.le_refl _⟩

theorem Reads.fail (fault : Fault) (place : List Char) :
    Reads source opened k (fail (α := α) fault (offset source place)) rest
      (.error ⟨fault, place⟩) := by
  intro t ht _ _
  refine ⟨(.error (.failed ⟨fault, offset source place⟩), t), rfl, ht, ?_⟩
  show _ = _
  rw [toParseError_eq]

/-- A reader goes on from where the one before it has come to, which is further on in the source
by what that one has taken. -/
theorem Reads.bindFrom {m : CursorM α} {f : α → CursorM β} {a : α}
    {result : Except Failure (β × List Char)}
    (hm : Reads source opened j m rest (.ok (a, rest')))
    (hf : offset source rest + j ≤ offset source rest' →
      Reads source opened k (f a) rest' result) :
    Reads source opened (j + k) (m >>= f) rest result := by
  intro t ht hopened hat
  obtain ⟨⟨_, t'⟩, hrun, hsafe, rfl, hopened', hat', hproduced, hleast⟩ := hm t ht hopened hat
  have hadvance : offset source rest + j ≤ offset source rest' := by
    rw [← hat.pos_eq, ← hat'.pos_eq]
    omega
  obtain ⟨e, hrun', hsafe', hends⟩ := hf hadvance t' hsafe hopened' hat'
  refine ⟨e, ?_, hsafe', ?_⟩
  · rw [run_bind, hrun]
    exact hrun'
  · cases result with
    | error failure => exact hends
    | ok answer =>
      obtain ⟨hvalue, hopened'', hat'', hproduced', hleast'⟩ := hends
      refine ⟨hvalue, hopened'', hat'', Nat.le_trans hproduced hproduced', ?_⟩
      show t.now.pos + e.2.now.produced + (j + k) ≤ e.2.now.pos + t.now.produced
      omega

theorem Reads.bind {m : CursorM α} {f : α → CursorM β} {a : α}
    {result : Except Failure (β × List Char)}
    (hm : Reads source opened j m rest (.ok (a, rest')))
    (hf : Reads source opened k (f a) rest' result) :
    Reads source opened (j + k) (m >>= f) rest result :=
  hm.bindFrom fun _ => hf

theorem Reads.andThenFrom {m : CursorM α} {f : α → CursorM β} {a : α}
    {result : Except Failure (β × List Char)}
    (hm : Reads source opened j m rest (.ok (a, rest')))
    (hf : offset source rest + j ≤ offset source rest' →
      Reads source opened k (f a) rest' result) : Reads source opened k (m >>= f) rest result :=
  (hm.bindFrom hf).weaken (Nat.le_add_left ..)

theorem Reads.andThen {m : CursorM α} {f : α → CursorM β} {a : α}
    {result : Except Failure (β × List Char)}
    (hm : Reads source opened j m rest (.ok (a, rest')))
    (hf : Reads source opened k (f a) rest' result) : Reads source opened k (m >>= f) rest result :=
  hm.andThenFrom fun _ => hf

/-- After a failure nothing is read. -/
theorem Reads.bind_error {m : CursorM α} {f : α → CursorM β} {failure : Failure}
    (hm : Reads source opened 0 m rest (.error failure)) :
    Reads source opened k (m >>= f) rest (.error failure) := by
  intro t ht hopened hat
  obtain ⟨⟨_, t'⟩, hrun, hsafe, rfl⟩ := hm t ht hopened hat
  refine ⟨(.error (.failed (failure.toParseError source.toList)), t'), ?_, hsafe, rfl⟩
  rw [run_bind, hrun]
  rfl

/-! ## Single steps -/

theorem reads_position :
    Reads source opened 0 position rest (.ok (offset source rest, rest)) := by
  intro t ht hopened hat
  refine ⟨(.ok t.now.pos, t), rfl, ht, ?_, hopened, hat, Nat.le_refl _, Nat.le_refl _⟩
  rw [hat.pos_eq]

theorem reads_moveTo {text : List Char} (h : rest = text ++ rest') :
    Reads source opened (byteLength text) (moveTo (offset source rest')) rest
      (.ok ((), rest')) := by
  intro t ht hopened hat
  have hpos := offset_append hat.suffix h
  have hat' := hat.pos_eq
  subst h
  have hsuffix : rest' <:+ source.toList := (List.suffix_append ..).trans hat.suffix
  have hle := byteLength_le hsuffix
  refine ⟨_, rfl, safe_moveTo ht hat, rfl, hopened, ⟨hsuffix, ?_⟩, Nat.le_refl _, ?_⟩
  · show offset source rest' + byteLength rest' = source.utf8ByteSize
    exact Nat.sub_add_cancel hle
  · show t.now.pos + t.now.produced + byteLength text ≤ offset source rest' + t.now.produced
    omega

theorem reads_advance {text : List Char} (h : rest = text ++ rest') {count : Nat}
    (hcount : count = byteLength text) :
    Reads source opened (byteLength text) (advance count) rest (.ok ((), rest')) := by
  apply Reads.of_suffix
  intro hsuffix
  apply reads_position.andThen
  rw [hcount, offset_append hsuffix h]
  exact reads_moveTo h

/-- A text between an earlier place and the cursor can be cut out. -/
theorem reads_slice {text : List Char} (h : text ++ rest <:+ source.toList) :
    Reads source opened 0
      (orPanic (slice? source (offset source (text ++ rest)) (offset source rest))) rest
      (.ok (String.ofList text, rest)) := by
  rw [slice?_offset h]
  exact Reads.pure _

theorem reads_rest :
    Reads source opened 0 (Cursor.rest source) rest (.ok (String.ofList rest, rest)) := by
  apply Reads.of_suffix
  intro hsuffix
  apply reads_position.andThen
  have hslice : slice? source (offset source rest) source.utf8ByteSize =
      some (String.ofList rest) := by
    have hend : offset source [] = source.utf8ByteSize := rfl
    rw [← hend]
    simpa using slice?_offset (show rest ++ [] <:+ source.toList by rwa [List.append_nil])
  rw [hslice]
  exact Reads.pure _

theorem reads_peek_nil : Reads source opened 0 (peek source) [] (.ok (none, [])) := by
  intro t ht hopened hat
  obtain ⟨before, hbefore, hpos⟩ := hat.exists_before
  refine ⟨(.ok (bytes source)[t.now.pos]?, t), rfl, ht, ?_, hopened, hat, Nat.le_refl _,
    Nat.le_refl _⟩
  rw [List.append_nil] at hbefore
  rw [hpos, getElem?_bytes_nil hbefore]

theorem reads_peek_cons {c : Char} {b : UInt8} {more : List UInt8}
    (hbytes : String.utf8EncodeChar c = b :: more) :
    Reads source opened 0 (peek source) (c :: rest) (.ok (some b, c :: rest)) := by
  intro t ht hopened hat
  obtain ⟨before, hbefore, hpos⟩ := hat.exists_before
  refine ⟨(.ok (bytes source)[t.now.pos]?, t), rfl, ht, ?_, hopened, hat, Nat.le_refl _,
    Nat.le_refl _⟩
  rw [hpos, getElem?_bytes_cons hbefore hbytes]

theorem reads_skipWhitespace :
    Reads source opened 0 (skipWhitespace source) rest (.ok ((), skipBlank rest)) := by
  apply reads_rest.andThen
  rw [String.toList_ofList]
  show Reads source opened 0
    (moveTo (source.utf8ByteSize - (String.ofList (skipBlank rest)).utf8ByteSize)) rest _
  rw [utf8ByteSize_ofList]
  have hrest : rest = rest.takeWhile isBlank ++ skipBlank rest :=
    List.takeWhile_append_dropWhile.symm
  exact (reads_moveTo hrest).weaken (Nat.zero_le _)

theorem reads_eat_of_eq {token : String} (h : rest = token.toList ++ rest') :
    Reads source opened token.utf8ByteSize (eat source token) rest (.ok (true, rest')) := by
  rw [← byteLength_toList]
  apply reads_rest.andThen
  rw [String.toList_ofList, if_pos (by simp [h])]
  apply (reads_advance h (byteLength_toList token).symm).bind (k := 0)
  exact Reads.pure _

theorem reads_eat_of_not {token : String} (h : ∀ more, rest ≠ token.toList ++ more) :
    Reads source opened 0 (eat source token) rest (.ok (false, rest)) := by
  apply reads_rest.andThen
  rw [String.toList_ofList, if_neg]
  · exact Reads.pure _
  · rw [List.isPrefixOf_iff_prefix]
    rintro ⟨more, hmore⟩
    exact h more hmore.symm

theorem reads_expect_of_eq {what : Expectation} (h : rest = what.text.toList ++ rest') :
    Reads source opened what.text.utf8ByteSize (expect source what) rest (.ok ((), rest')) := by
  apply (reads_eat_of_eq h).bind (k := 0)
  exact Reads.pure _

theorem reads_expect_of_not {what : Expectation} (h : ∀ more, rest ≠ what.text.toList ++ more) :
    Reads source opened k (expect source what) rest (.error ⟨.expected what, rest⟩) := by
  apply (reads_eat_of_not h).andThen
  apply reads_position.andThen
  exact Reads.fail (.expected what) rest

theorem reads_takeWhile {accept : UInt8 → Bool} {p : Char → Bool} (h : SameClass accept p) :
    Reads source opened (byteLength (rest.takeWhile p)) (takeWhile source accept) rest
      (.ok (String.ofList (rest.takeWhile p), rest.dropWhile p)) := by
  apply Reads.of_suffix
  intro hsuffix
  have hrest : rest = rest.takeWhile p ++ rest.dropWhile p :=
    List.takeWhile_append_dropWhile.symm
  apply reads_position.andThen
  apply reads_rest.andThen
  apply (reads_advance hrest (length_takeWhile_bytes h rest)).bind (k := 0)
  apply reads_position.andThen
  have hslice := @reads_slice source opened _ _ (hrest ▸ hsuffix)
  rwa [← hrest] at hslice

/-! ## Calls -/

/-- A call that takes the bytes that its routine has to take can be recorded. -/
theorem Reads.call {routine : Routine} {body : Nat → CursorM α}
    {result : Except Failure (α × List Char)}
    (h : Reads source opened k (body (offset source rest)) rest result)
    (hleast : routine.least ≤ k) : Reads source opened k (call routine body) rest result := by
  apply reads_position.andThen
  cases result with
  | error failure => exact (h.weaken (Nat.zero_le _)).bind_error
  | ok answer =>
    intro t ht hopened hat
    obtain ⟨⟨_, t'⟩, hrun, hsafe, rfl, hopened', hat', hproduced, hk⟩ := h t ht hopened hat
    have hcall : offset source rest + routine.least ≤ t'.now.pos := by
      rw [← hat.pos_eq]
      omega
    have hsafe' : Trace.Safe source ⟨t'.now, t'.earlier,
        ⟨routine, offset source rest, t'.now.pos⟩ :: t'.calls⟩ := by
      refine ⟨hsafe.moment, hsafe.forward, ?_⟩
      intro c hc
      rcases List.mem_cons.mp hc with rfl | hc
      · exact hcall
      · exact hsafe.call c hc
    refine ⟨(.ok answer.1, _), ?_, hsafe', rfl, hopened', ⟨hat'.suffix, hat'.pos⟩, hproduced, hk⟩
    rw [run_bind, hrun]
    rfl

/-- A literal call is safe when those around it began at least two bytes before. -/
theorem Reads.whileOpen {body : CursorM α} {result : Except Failure (α × List Char)}
    (hroom : ∀ start ∈ opened, start + 2 ≤ offset source rest)
    (h : Reads source (offset source rest :: opened) k body rest result) :
    Reads source opened k (whileOpen body) rest result := by
  apply reads_position.andThen
  intro t ht hopened hat
  subst hopened
  have hnow := now_safe ht
  have hmoment : Moment.Safe source
      ⟨t.now.pos, offset source rest :: t.now.opened, t.now.produced⟩ := by
    refine ⟨hnow.le_size, hnow.boundary, hnow.spaced.cons hroom, ?_, hnow.produced_le⟩
    intro start hstart
    rcases List.mem_cons.mp hstart with rfl | hstart
    · exact Nat.le_of_eq hat.pos_eq.symm
    · exact hnow.opened_le start hstart
  have hsafe := safe_proceed ht hmoment (Nat.le_refl _)
  obtain ⟨⟨r, t'⟩, hrun, hsafe', hends⟩ := h _ hsafe rfl ⟨hat.suffix, hat.pos⟩
  cases result with
  | error failure =>
    obtain rfl := hends
    refine ⟨(_, t'), ?_, hsafe', rfl⟩
    simp only [run_bind, run_proceed, Option.bind_some, hrun]
  | ok answer =>
    obtain ⟨rfl, hopened', hat', hproduced, hk⟩ := hends
    have hnow' : t'.now.Safe source := now_safe hsafe'
    have htail : t'.now.opened.tail = t.now.opened := congrArg List.tail hopened'
    have hmoment' : Moment.Safe source ⟨t'.now.pos, t'.now.opened.tail, t'.now.produced⟩ := by
      refine ⟨hnow'.le_size, hnow'.boundary, hnow'.spaced.tail, ?_, hnow'.produced_le⟩
      intro start hstart
      exact hnow'.opened_le start (List.mem_of_mem_tail hstart)
    have hsafe'' := safe_proceed hsafe' hmoment' (Nat.le_refl _)
    refine ⟨(.ok answer.1, _), ?_, hsafe'', rfl, htail, ⟨hat'.suffix, hat'.pos⟩, hproduced, hk⟩
    simp only [run_bind, run_proceed, Option.bind_some, hrun]
    rfl

/-- A segment that took at least one byte can be counted. -/
theorem Reads.producing {body : CursorM α} {result : Except Failure (α × List Char)}
    (h : Reads source opened (k + 1) body rest result) :
    Reads source opened k (producing body) rest result := by
  cases result with
  | error failure => exact (h.weaken (Nat.zero_le _)).bind_error
  | ok answer =>
    intro t ht hopened hat
    obtain ⟨⟨_, t'⟩, hrun, hsafe, rfl, hopened', hat', hproduced, hk⟩ := h t ht hopened hat
    have hstart : t.now.produced ≤ t.now.pos := (now_safe ht).produced_le
    have hnow : t'.now.Safe source := now_safe hsafe
    have hmoment : Moment.Safe source ⟨t'.now.pos, t'.now.opened, t'.now.produced + 1⟩ := by
      refine ⟨hnow.le_size, hnow.boundary, hnow.spaced, hnow.opened_le, ?_⟩
      show t'.now.produced + 1 ≤ t'.now.pos
      omega
    have hsafe' := safe_proceed hsafe hmoment (Nat.le_refl _)
    have hk' : t.now.pos + (t'.now.produced + 1) + k ≤ t'.now.pos + t.now.produced := by
      omega
    refine ⟨(.ok answer.1, _), ?_, hsafe', rfl, hopened', ⟨hat'.suffix, hat'.pos⟩,
      Nat.le_succ_of_le hproduced, hk'⟩
    rw [Cursor.producing, run_bind, hrun]
    rfl

end Cursor

end ClauseMatch.Literal
