import Rmcp.Transport.Codec

/-!
# The line codec does not depend on the chunks

`reference` says what a stream gives, without a codec: split it at every newline, and
look at each line alone. The codec gives the same list for every way of cutting the
stream into chunks.

The proof follows the codec's state. `resultsFrom d s` is what the bytes `s` still give to
a codec that is (`d`) or is not discarding; one call of `decode` moves one result from
there to its output (`decode_spec`), whatever bytes arrive later. The invariant `Searched`
says that the bytes before the search position have been searched.

Results:
1. `decode_spec`, `decodeEof_spec`: one call.
2. `decodeStream_eq_reference`: the whole stream.
-/

namespace Rmcp

namespace JsonRpcMessageCodec

variable {T E : Type}

/-! ## The reference -/

/-- What a terminated line gives. -/
def lineResult (parse : List UInt8 → Except E T) (maxLength : UInt64) (line : List UInt8) :
    LineResult T E :=
  if maxLength.toNat < line.length then .error .maxLineLengthExceeded else parseLine parse line

/-- What the unterminated rest of the stream gives. -/
def restResults (parse : List UInt8 → Except E T) (maxLength : UInt64) (rest : List UInt8) :
    List (LineResult T E) :=
  if rest = [] then []
  else if maxLength.toNat < rest.length then [.error .maxLineLengthExceeded]
  else if rest = [carriageReturn] then []
  else [parseLine parse rest]

/-- The results of the lines of a stream, of which the last one is not terminated. -/
def segmentResults (parse : List UInt8 → Except E T) (maxLength : UInt64) :
    List (List UInt8) → List (LineResult T E)
  | [] => []
  | [rest] => restResults parse maxLength rest
  | line :: next :: segments =>
    lineResult parse maxLength line :: segmentResults parse maxLength (next :: segments)

/-- The results a stream has to give. -/
def reference (parse : List UInt8 → Except E T) (maxLength : UInt64) (stream : List UInt8) :
    List (LineResult T E) :=
  segmentResults parse maxLength (stream.splitOn newline)

/-- The results that `s` still gives to a codec which is, or is not, discarding. -/
def resultsFrom (parse : List UInt8 → Except E T) (maxLength : UInt64) (discarding : Bool)
    (s : List UInt8) : List (LineResult T E) :=
  segmentResults parse maxLength
    (if discarding then (s.splitOn newline).tail else s.splitOn newline)

section Lines

variable {parse : List UInt8 → Except E T} {maxLength : UInt64} {l s : List UInt8}

theorem splitOn_line (h : newline ∉ l) (s : List UInt8) :
    (l ++ newline :: s).splitOn newline = l :: s.splitOn newline :=
  List.splitOnP_append_cons_of_forall_mem
    (fun b hb => by simpa using fun hbn : b = newline => h (hbn ▸ hb)) newline (by simp) s

theorem splitOn_rest (h : newline ∉ s) : s.splitOn newline = [s] :=
  List.splitOnP_eq_singleton fun b hb => by simpa using fun hbn : b = newline => h (hbn ▸ hb)

/-- Every stream is a newline-free rest, or begins with a terminated line. -/
theorem line_or_rest (s : List UInt8) :
    newline ∉ s ∨ ∃ line more, s = line ++ newline :: more ∧ newline ∉ line := by
  by_cases h : newline ∈ s
  · obtain ⟨line, more, heq, hline⟩ := List.eq_append_cons_of_mem h
    exact .inr ⟨line, more, heq, hline⟩
  · exact .inl h

theorem segmentResults_cons (line : List UInt8) (s : List UInt8) :
    segmentResults parse maxLength (line :: s.splitOn newline) =
      lineResult parse maxLength line :: segmentResults parse maxLength (s.splitOn newline) := by
  cases hs : s.splitOn newline with
  | nil => exact absurd hs (List.splitOnP_ne_nil _ _)
  | cons next segments => rfl

/-- The end of a discarded line. -/
theorem resultsFrom_discard_line (h : newline ∉ l) (s : List UInt8) :
    resultsFrom parse maxLength true (l ++ newline :: s) = resultsFrom parse maxLength false s := by
  simp [resultsFrom, splitOn_line h]

/-- A newline-free part of a discarded line. -/
theorem resultsFrom_discard (h : newline ∉ l) (s : List UInt8) :
    resultsFrom parse maxLength true (l ++ s) = resultsFrom parse maxLength true s := by
  rcases line_or_rest s with hs | ⟨line, more, rfl, hline⟩
  · have hls : newline ∉ l ++ s := by simp [h, hs]
    simp [resultsFrom, splitOn_rest hls, splitOn_rest hs]
  · have hl : newline ∉ l ++ line := by simp [h, hline]
    rw [← List.append_assoc, resultsFrom_discard_line hl, resultsFrom_discard_line hline]

/-- A terminated line. -/
theorem resultsFrom_line (h : newline ∉ l) (s : List UInt8) :
    resultsFrom parse maxLength false (l ++ newline :: s) =
      lineResult parse maxLength l :: resultsFrom parse maxLength false s := by
  simp [resultsFrom, splitOn_line h, segmentResults_cons]

/-- The unterminated rest. -/
theorem resultsFrom_rest (h : newline ∉ s) :
    resultsFrom parse maxLength false s = restResults parse maxLength s := by
  simp [resultsFrom, splitOn_rest h, segmentResults]

/-- A line that begins with too many bytes gives the length error, and nothing else. -/
theorem resultsFrom_too_long (h : newline ∉ l) (hlen : maxLength.toNat < l.length)
    (s : List UInt8) :
    resultsFrom parse maxLength false (l ++ s) =
      .error .maxLineLengthExceeded :: resultsFrom parse maxLength true (l ++ s) := by
  rcases line_or_rest s with hs | ⟨line, more, rfl, hline⟩
  · have hls : newline ∉ l ++ s := by simp [h, hs]
    have hne : l ++ s ≠ [] := by
      intro hnil
      simp_all
    have hlen' : maxLength.toNat < (l ++ s).length := by
      rw [List.length_append]
      omega
    rw [resultsFrom_rest hls, restResults, if_neg hne, if_pos hlen']
    simp [resultsFrom, splitOn_rest hls, segmentResults]
  · have hl : newline ∉ l ++ line := by simp [h, hline]
    have hlen' : maxLength.toNat < (l ++ line).length := by
      rw [List.length_append]
      omega
    rw [← List.append_assoc, resultsFrom_line hl, resultsFrom_discard_line hl, lineResult,
      if_pos hlen']

end Lines

/-! ## The search for a newline -/

/-- The bytes before the search position are in the range to search and hold no newline. -/
structure Searched (c : JsonRpcMessageCodec) (buf : List UInt8) : Prop where
  inRange : c.nextIndex ≤ c.readTo buf
  noNewline : newline ∉ buf.take c.nextIndex

section Search

variable {c : JsonRpcMessageCodec} {buf : List UInt8} {offset : Nat}

theorem searched_zero (h : c.nextIndex = 0) : Searched c buf :=
  ⟨by omega, by simp [h]⟩

theorem readTo_le_length : c.readTo buf ≤ buf.length :=
  Nat.min_le_right _ _

theorem take_readTo (h : Searched c buf) :
    buf.take (c.readTo buf) =
      buf.take c.nextIndex ++ (buf.take (c.readTo buf)).drop c.nextIndex := by
  conv_lhs => rw [← List.take_append_drop c.nextIndex (buf.take (c.readTo buf))]
  rw [List.take_take, Nat.min_eq_left h.inRange]

/-- A newline that is found ends a line of at most `max_length` bytes. -/
theorem newlineOffset_some (h : Searched c buf) (hn : c.newlineOffset buf = some offset) :
    newline ∉ buf.take (offset + c.nextIndex) ∧
      buf = buf.take (offset + c.nextIndex) ++ newline :: buf.drop (offset + c.nextIndex + 1) ∧
      (buf.take (offset + c.nextIndex)).length ≤ c.maxLength.toNat := by
  obtain ⟨hlt, hat, hbefore⟩ := List.findIdx?_eq_some_iff_getElem.mp hn
  simp only [List.length_drop, List.length_take] at hlt
  have hlen := @readTo_le_length c buf
  have hend : offset + c.nextIndex < buf.length := by omega
  have hat' : buf[offset + c.nextIndex] = newline := by
    simpa [Nat.add_comm] using hat
  refine ⟨fun hmem => ?_, ?_, ?_⟩
  · obtain ⟨i, hi, heq⟩ := List.mem_iff_getElem.mp hmem
    simp only [List.length_take] at hi
    by_cases hpos : i < c.nextIndex
    · refine h.noNewline (List.mem_iff_getElem.mpr ⟨i, ?_, ?_⟩)
      · simp only [List.length_take]
        omega
      · simpa using heq
    · have := hbefore (i - c.nextIndex) (by omega)
      simp only [List.getElem_drop, List.getElem_take, beq_iff_eq] at this
      refine absurd ?_ this
      simpa [show c.nextIndex + (i - c.nextIndex) = i by omega] using heq
  · rw [← hat', List.getElem_cons_drop, List.take_append_drop]
  · simp only [List.length_take]
    unfold readTo at hlt hlen
    omega

theorem newlineOffset_none (h : Searched c buf) (hn : c.newlineOffset buf = none) :
    newline ∉ buf.take (c.readTo buf) := by
  rw [take_readTo h, List.mem_append]
  rintro (hmem | hmem)
  · exact h.noNewline hmem
  · simpa using List.findIdx?_eq_none_iff.mp hn newline hmem

end Search

/-! ## One call -/

/-- The results that a call hands over. -/
def emitted : Decoded T E → List (LineResult T E)
  | .ok none => []
  | .ok (some item) => [.ok item]
  | .error e => [.error e]

/-- No part of the stream without a newline is as long as the address space. This is a bound
on the buffer, and it is asked for with `max_length = usize::MAX` only. -/
def FitsMemory (maxLength : UInt64) (s : List UInt8) : Prop :=
  maxLength.toNat = usizeMax → ∀ part, part <:+: s → newline ∉ part → part.length < usizeMax

/-- From one codec and buffer to another one, handing over `items`: they are the first of
the results that the buffer and every continuation of it give. -/
structure Moves (parse : List UInt8 → Except E T) (c : JsonRpcMessageCodec) (buf : List UInt8)
    (items : List (LineResult T E)) (c' : JsonRpcMessageCodec) (buf' : List UInt8) : Prop where
  maxLength_eq : c'.maxLength = c.maxLength
  searched : Searched c' buf'
  suffix : buf' <:+ buf
  results : ∀ tail, resultsFrom parse c.maxLength c.isDiscarding (buf ++ tail) =
    items ++ resultsFrom parse c.maxLength c'.isDiscarding (buf' ++ tail)

/-- The codec waits for more bytes: the buffer holds no line, and none that is too long. -/
structure Drained (c : JsonRpcMessageCodec) (buf : List UInt8) : Prop where
  noNewline : newline ∉ buf
  rest : if c.isDiscarding then buf = [] else buf.length ≤ c.maxLength.toNat

variable {parse : List UInt8 → Except E T}

theorem Moves.trans {c₁ c₂ c₃ : JsonRpcMessageCodec} {b₁ b₂ b₃ : List UInt8}
    {xs ys : List (LineResult T E)} (h₁ : Moves parse c₁ b₁ xs c₂ b₂)
    (h₂ : Moves parse c₂ b₂ ys c₃ b₃) : Moves parse c₁ b₁ (xs ++ ys) c₃ b₃ := by
  refine ⟨h₂.maxLength_eq.trans h₁.maxLength_eq, h₂.searched, h₂.suffix.trans h₁.suffix,
    fun tail => ?_⟩
  have hrest := h₂.results tail
  rw [h₁.maxLength_eq] at hrest
  rw [h₁.results, hrest, List.append_assoc]

theorem FitsMemory.part {maxLength : UInt64} {s t : List UInt8} (h : FitsMemory maxLength s)
    (ht : t <:+: s) : FitsMemory maxLength t :=
  fun hmax part hpart => h hmax part (hpart.trans ht)

theorem Moves.fitsMemory {c c' : JsonRpcMessageCodec} {buf buf' : List UInt8}
    {items : List (LineResult T E)} (h : Moves parse c buf items c' buf')
    (hmem : FitsMemory c.maxLength buf) : FitsMemory c'.maxLength buf' := by
  rw [h.maxLength_eq]
  exact hmem.part h.suffix.isInfix

/-- One call of `decode`. -/
theorem decode_spec (parse : List UInt8 → Except E T) {c : JsonRpcMessageCodec}
    {buf : List UInt8} (hs : Searched c buf)
    (hmem : FitsMemory c.maxLength buf) :
    ∃ out c' buf', decode parse c buf = some (out, c', buf') ∧
      Moves parse c buf (emitted out) c' buf' ∧ (out = .ok none → Drained c' buf') := by
  induction c, buf using decode.induct with
  | case1 c buf hr => exact absurd hs.inRange (by omega)
  | case2 c buf hr offset hd hn ih =>
    obtain ⟨hline, hbuf, -⟩ := newlineOffset_some hs hn
    have hsuffix := List.drop_suffix (offset + c.nextIndex + 1) buf
    obtain ⟨out, c', buf', hdecode, hmoves, hdrained⟩ :=
      ih (searched_zero rfl) (hmem.part hsuffix.isInfix)
    refine ⟨out, c', buf', by rw [decode_discard_line hr hd hn, hdecode],
      ⟨hmoves.maxLength_eq, hmoves.searched, hmoves.suffix.trans hsuffix, fun tail => ?_⟩,
      hdrained⟩
    conv_lhs => rw [hbuf, hd, List.append_assoc, List.cons_append, resultsFrom_discard_line hline]
    exact hmoves.results tail
  | case3 c buf hr hd hn hnil =>
    have hline := newlineOffset_none hs hn
    have hbuf : buf.take (c.readTo buf) = buf := by
      simpa [hnil] using List.take_append_drop (c.readTo buf) buf
    rw [hbuf] at hline
    refine ⟨_, _, _, decode_discard_all hr hd hn hnil,
      ⟨rfl, searched_zero rfl, List.nil_suffix, fun tail => ?_⟩, fun _ => ⟨by simp, by simp [hd]⟩⟩
    simp [hd, emitted, resultsFrom_discard hline]
  | case4 c buf hr hd hn hnil ih =>
    have hline := newlineOffset_none hs hn
    have hsuffix := List.drop_suffix (c.readTo buf) buf
    obtain ⟨out, c', buf', hdecode, hmoves, hdrained⟩ :=
      ih (searched_zero rfl) (hmem.part hsuffix.isInfix)
    refine ⟨out, c', buf', by rw [decode_discard_more hr hd hn hnil, hdecode],
      ⟨hmoves.maxLength_eq, hmoves.searched, hmoves.suffix.trans hsuffix, fun tail => ?_⟩,
      hdrained⟩
    have hresults := hmoves.results tail
    rw [hd] at hresults
    conv_lhs =>
      rw [← List.take_append_drop (c.readTo buf) buf, hd, List.append_assoc,
        resultsFrom_discard hline]
    exact hresults
  | case5 c buf hr offset hd hn =>
    obtain ⟨hline, hbuf, hlen⟩ := newlineOffset_some hs hn
    refine ⟨_, _, _, decode_line hr hd hn,
      ⟨rfl, searched_zero rfl, List.drop_suffix _ _, fun tail => ?_⟩, ?_⟩
    · conv_lhs => rw [hbuf, hd, List.append_assoc, List.cons_append, resultsFrom_line hline]
      rw [lineResult, if_neg (by omega)]
      cases parseLine parse (buf.take (offset + c.nextIndex)) <;> simp [emitted, Except.map, hd]
    · cases parseLine parse (buf.take (offset + c.nextIndex)) <;> simp [Except.map]
  | case6 c buf hr hd hn hlen =>
    have hline := newlineOffset_none hs hn
    have hpart : (buf.take (c.readTo buf)).length = c.readTo buf := by
      rw [List.length_take, Nat.min_eq_left readTo_le_length]
    -- the searched part alone is too long already
    have hlong : c.maxLength.toNat < (buf.take (c.readTo buf)).length := by
      have hmax : c.maxLength.toNat ≤ usizeMax := by
        have := c.maxLength.toNat_lt
        unfold usizeMax
        omega
      by_cases hall : c.maxLength.toNat = usizeMax
      · have := hmem hall _ (List.take_prefix _ _).isInfix hline
        rw [hpart] at this
        unfold readTo at this
        omega
      · rw [hpart]
        unfold readTo
        omega
    refine ⟨_, _, _, decode_too_long hr hd hn hlen,
      ⟨rfl, ⟨hs.inRange, hs.noNewline⟩, List.suffix_refl _, fun tail => ?_⟩, by simp⟩
    conv_lhs =>
      rw [← List.take_append_drop (c.readTo buf) buf, hd, List.append_assoc,
        resultsFrom_too_long hline hlong, ← List.append_assoc, List.take_append_drop]
    rfl
  | case7 c buf hr hd hn hlen =>
    have hline := newlineOffset_none hs hn
    have hread : c.readTo buf = buf.length := by
      have := c.maxLength.toNat_lt
      unfold readTo usizeMax
      omega
    rw [hread, List.take_length] at hline
    refine ⟨_, _, _, decode_need_more hr hd hn hlen,
      ⟨rfl, ⟨Nat.le_refl _, by simpa [hread] using hline⟩, List.suffix_refl _,
        fun tail => by simp [emitted]⟩, fun _ => ⟨hline, ?_⟩⟩
    simp only [hd, Bool.false_eq_true, ↓reduceIte]
    omega

theorem resultsFrom_nil (maxLength : UInt64) (discarding : Bool) :
    resultsFrom parse maxLength discarding [] = [] := by
  cases discarding <;> simp [resultsFrom, segmentResults, restResults]

/-- One call of `decode_eof`: there is no continuation any more. -/
theorem decodeEof_spec (parse : List UInt8 → Except E T) {c : JsonRpcMessageCodec}
    {buf : List UInt8} (hs : Searched c buf)
    (hmem : FitsMemory c.maxLength buf) :
    ∃ out c' buf', decodeEof parse c buf = some (out, c', buf') ∧
      c'.maxLength = c.maxLength ∧ Searched c' buf' ∧ buf' <:+ buf ∧
      resultsFrom parse c.maxLength c.isDiscarding buf =
        emitted out ++ resultsFrom parse c.maxLength c'.isDiscarding buf' ∧
      (out = .ok none → resultsFrom parse c.maxLength c'.isDiscarding buf' = []) := by
  obtain ⟨out, c', buf', hdecode, hmoves, hdrained⟩ := decode_spec parse hs hmem
  have hresults := hmoves.results []
  simp only [List.append_nil] at hresults
  by_cases hout : out = .ok none
  · subst hout
    obtain ⟨hline, hrest⟩ := hdrained rfl
    have hmax := hmoves.maxLength_eq
    by_cases hnil : buf' = []
    · subst hnil
      refine ⟨.ok none, { c' with nextIndex := 0 }, [], ?_, hmax, searched_zero rfl,
        List.nil_suffix, hresults, fun _ => resultsFrom_nil _ _⟩
      simp [decodeEof, hdecode]
    · -- a rest that is not empty belongs to a line which is not discarded
      have hd : c'.isDiscarding = false := by
        by_contra htrue
        simp_all
      simp only [hd, Bool.false_eq_true, ↓reduceIte, hmax] at hrest
      have hlast : resultsFrom parse c.maxLength false buf' =
          if buf' = [carriageReturn] then [] else [parseLine parse buf'] := by
        rw [resultsFrom_rest hline, restResults, if_neg hnil, if_neg (by omega)]
      rw [hd, hlast] at hresults
      by_cases hcr : buf' = [carriageReturn]
      · refine ⟨.ok none, { c' with nextIndex := 0 }, buf', ?_, hmax, searched_zero rfl,
          hmoves.suffix, ?_, fun _ => ?_⟩
        · simp [decodeEof, hdecode, hcr]
        · simp [hresults, hd, hlast]
        · rw [hd, hlast, if_pos hcr]
      · refine ⟨(parseLine parse buf').map some, { c' with nextIndex := 0 }, [], ?_, hmax,
          searched_zero rfl, List.nil_suffix, ?_, fun _ => resultsFrom_nil _ _⟩
        · simp [decodeEof, hdecode, hnil, hcr]
        · rw [hresults, if_neg hcr, resultsFrom_nil]
          cases parseLine parse buf' <;> rfl
  · refine ⟨out, c', buf', ?_, hmoves.maxLength_eq, hmoves.searched, hmoves.suffix, hresults,
      fun h => absurd h hout⟩
    unfold decodeEof
    rw [hdecode]
    split
    · next heq => simp_all
    · rfl

/-! ## The whole stream -/

theorem drain_spec (parse : List UInt8 → Except E T) {c : JsonRpcMessageCodec}
    {buf : List UInt8} (hs : Searched c buf)
    (hmem : FitsMemory c.maxLength buf) :
    ∃ items c' buf', drain parse c buf = some (items, c', buf') ∧
      Moves parse c buf items c' buf' ∧ Drained c' buf' := by
  induction c, buf using drain.induct parse with
  | case1 c buf hdecode =>
    obtain ⟨out, c', buf', hsome, -⟩ := decode_spec parse hs hmem
    exact absurd hsome (by simp [hdecode])
  | case2 c buf c' buf' hdecode =>
    obtain ⟨_, _, _, hsome, hmoves, hdrained⟩ := decode_spec parse hs hmem
    obtain ⟨rfl, rfl, rfl⟩ : _ ∧ _ ∧ _ := by simpa [hdecode] using hsome
    exact ⟨[], c', buf', drain_done hdecode, hmoves, hdrained rfl⟩
  | case3 c buf item c' buf' hdecode ih =>
    obtain ⟨_, _, _, hsome, hmoves, -⟩ := decode_spec parse hs hmem
    obtain ⟨rfl, rfl, rfl⟩ : _ ∧ _ ∧ _ := by simpa [hdecode] using hsome
    obtain ⟨items, c'', buf'', hdrain, hmoves', hdrained⟩ :=
      ih hmoves.searched (hmoves.fitsMemory hmem)
    exact ⟨.ok item :: items, c'', buf'', by rw [drain_item hdecode, hdrain]; rfl,
      hmoves.trans hmoves', hdrained⟩
  | case4 c buf e c' buf' hdecode ih =>
    obtain ⟨_, _, _, hsome, hmoves, -⟩ := decode_spec parse hs hmem
    obtain ⟨rfl, rfl, rfl⟩ : _ ∧ _ ∧ _ := by simpa [hdecode] using hsome
    obtain ⟨items, c'', buf'', hdrain, hmoves', hdrained⟩ :=
      ih hmoves.searched (hmoves.fitsMemory hmem)
    exact ⟨.error e :: items, c'', buf'', by rw [drain_error hdecode, hdrain]; rfl,
      hmoves.trans hmoves', hdrained⟩

theorem drainEof_spec (parse : List UInt8 → Except E T) {c : JsonRpcMessageCodec}
    {buf : List UInt8} (hs : Searched c buf)
    (hmem : FitsMemory c.maxLength buf) :
    drainEof parse c buf = some (resultsFrom parse c.maxLength c.isDiscarding buf) := by
  induction c, buf using drainEof.induct parse with
  | case1 c buf hdecode =>
    obtain ⟨out, c', buf', hsome, -⟩ := decodeEof_spec parse hs hmem
    exact absurd hsome (by simp [hdecode])
  | case2 c buf c' buf' hdecode =>
    obtain ⟨_, _, _, hsome, -, -, -, hresults, hdone⟩ := decodeEof_spec parse hs hmem
    obtain ⟨rfl, rfl, rfl⟩ : _ ∧ _ ∧ _ := by simpa [hdecode] using hsome
    rw [drainEof_done hdecode, hresults, hdone rfl]
    rfl
  | case3 c buf item c' buf' hdecode ih =>
    obtain ⟨_, _, _, hsome, hmax, hs', hsuffix, hresults, -⟩ :=
      decodeEof_spec parse hs hmem
    obtain ⟨rfl, rfl, rfl⟩ : _ ∧ _ ∧ _ := by simpa [hdecode] using hsome
    have hrest := ih hs' (by rw [hmax]; exact hmem.part hsuffix.isInfix)
    rw [drainEof_item hdecode, hrest, hresults, hmax]
    rfl
  | case4 c buf e c' buf' hdecode ih =>
    obtain ⟨_, _, _, hsome, hmax, hs', hsuffix, hresults, -⟩ :=
      decodeEof_spec parse hs hmem
    obtain ⟨rfl, rfl, rfl⟩ : _ ∧ _ ∧ _ := by simpa [hdecode] using hsome
    have hrest := ih hs' (by rw [hmax]; exact hmem.part hsuffix.isInfix)
    rw [drainEof_error hdecode, hrest, hresults, hmax]
    rfl

/-- More bytes do not undo what has been searched. -/
theorem Searched.append {c : JsonRpcMessageCodec} {buf : List UInt8} (h : Searched c buf)
    (chunk : List UInt8) : Searched c (buf ++ chunk) := by
  have hrange := h.inRange
  have hlen : c.nextIndex ≤ buf.length := Nat.le_trans hrange readTo_le_length
  refine ⟨?_, ?_⟩
  · unfold readTo at hrange ⊢
    simp only [List.length_append]
    omega
  · rw [List.take_append_of_le_length hlen]
    exact h.noNewline

theorem feed_spec (parse : List UInt8 → Except E T) {c : JsonRpcMessageCodec}
    {buf : List UInt8} {chunks : List (List UInt8)}
    (hs : Searched c buf) (hmem : FitsMemory c.maxLength (buf ++ chunks.flatten)) :
    ∃ items c' buf', feed parse c buf chunks = some (items, c', buf') ∧
      c'.maxLength = c.maxLength ∧ Searched c' buf' ∧ FitsMemory c.maxLength buf' ∧
      resultsFrom parse c.maxLength c.isDiscarding (buf ++ chunks.flatten) =
        items ++ resultsFrom parse c.maxLength c'.isDiscarding buf' := by
  induction chunks generalizing c buf with
  | nil =>
    simp only [List.flatten_nil, List.append_nil] at hmem ⊢
    exact ⟨[], c, buf, rfl, rfl, hs, hmem, rfl⟩
  | cons chunk chunks ih =>
    simp only [List.flatten_cons, ← List.append_assoc] at hmem ⊢
    obtain ⟨first, c₁, buf₁, hdrain, hmoves, -⟩ := drain_spec parse (hs.append chunk)
      (hmem.part (List.prefix_append _ _).isInfix)
    have hmem₁ : FitsMemory c₁.maxLength (buf₁ ++ chunks.flatten) := by
      rw [hmoves.maxLength_eq]
      obtain ⟨consumed, hconsumed⟩ := hmoves.suffix
      refine hmem.part (List.IsSuffix.isInfix ⟨consumed, ?_⟩)
      rw [← List.append_assoc, hconsumed]
    obtain ⟨rest, c₂, buf₂, hfeed, hmax, hs₂, hmem₂, hresults⟩ := ih hmoves.searched hmem₁
    rw [hmoves.maxLength_eq] at hmax hmem₂ hresults
    refine ⟨first ++ rest, c₂, buf₂, by simp [feed, hdrain, hfeed], hmax, hs₂, hmem₂, ?_⟩
    rw [hmoves.results, hresults, List.append_assoc]

theorem part_of_line {line more part : List UInt8} (hin : part <:+: line ++ newline :: more)
    (hpart : newline ∉ part) : part.length ≤ line.length ∨ part <:+: more := by
  obtain ⟨before, after, heq⟩ := hin
  rcases List.append_eq_append_iff.mp heq with ⟨rest, hline, -⟩ | ⟨rest, hbefore, hmore⟩
  · refine .inl ?_
    simp only [hline, List.length_append]
    omega
  · rcases List.append_eq_append_iff.mp hbefore with ⟨end_, -, hend⟩ | ⟨start, -, hstart⟩
    · cases rest with
      | nil =>
        have := congrArg List.length hbefore
        simp only [List.length_append, List.length_nil] at this
        exact .inl (by omega)
      | cons b rest =>
        obtain ⟨rfl, -⟩ := List.cons.inj hmore
        exact absurd (by simp [hend]) hpart
    · cases start with
      | nil =>
        rw [List.nil_append] at hstart
        cases rest with
        | nil => exact .inl (by simp [← hstart])
        | cons b rest =>
          obtain ⟨rfl, -⟩ := List.cons.inj hmore
          exact absurd (by simp [← hstart]) hpart
      | cons b start =>
        rw [hstart, List.cons_append, List.cons_append] at hmore
        obtain ⟨-, rfl⟩ := List.cons.inj hmore
        exact .inr ⟨start, after, rfl⟩

/-- A part of a stream without a newline is no longer than one of its lines. -/
theorem length_le_of_part {s part : List UInt8} (hin : part <:+: s) (hpart : newline ∉ part) :
    ∃ line ∈ s.splitOn newline, part.length ≤ line.length := by
  induction hn : s.length using Nat.strongRecOn generalizing s with
  | _ n ih =>
    rcases line_or_rest s with hs | ⟨line, more, rfl, hline⟩
    · exact ⟨s, by simp [splitOn_rest hs], hin.length_le⟩
    · rw [splitOn_line hline]
      rcases part_of_line hin hpart with hle | hmore
      · exact ⟨line, by simp, hle⟩
      · obtain ⟨line', hmem, hle⟩ := ih more.length (by simp [← hn]; omega) hmore rfl
        exact ⟨line', by simp [hmem], hle⟩

theorem decodeStream_of_fitsMemory (parse : List UInt8 → Except E T) {maxLength : UInt64}
    {chunks : List (List UInt8)} (hfits : FitsMemory maxLength chunks.flatten) :
    decodeStream parse maxLength chunks = some (reference parse maxLength chunks.flatten) := by
  obtain ⟨items, c, buf, hfeed, hmax, hs, hbuf, hresults⟩ :=
    @feed_spec _ _ parse (newWithMaxLength maxLength) [] chunks
      (searched_zero rfl) hfits
  have heof := drainEof_spec parse hs (by rwa [hmax])
  simp only [decodeStream, hfeed, Option.bind_some, heof, Option.map_some, hmax]
  rw [← hresults]
  rfl

/-- With `max_length = usize::MAX` the length check can only tell a line from one that is too
long while lines are shorter than the address space, which every buffer is. -/
theorem fitsMemory_of_lines {maxLength : UInt64} {s : List UInt8}
    (hmem : maxLength.toNat = usizeMax → ∀ line ∈ s.splitOn newline, line.length < usizeMax) :
    FitsMemory maxLength s := by
  intro hmax part hin hpart
  obtain ⟨line, hline, hle⟩ := length_le_of_part hin hpart
  exact Nat.lt_of_le_of_lt hle (hmem hmax line hline)

/-- The results of the codec for a stream are those of the reference, however the stream is
cut into chunks; every call of `decode` ends, and none of them slices out of range. -/
theorem decodeStream_eq_reference (parse : List UInt8 → Except E T) (maxLength : UInt64)
    (chunks : List (List UInt8))
    (hmem : maxLength.toNat = usizeMax →
      ∀ line ∈ chunks.flatten.splitOn newline, line.length < usizeMax) :
    decodeStream parse maxLength chunks = some (reference parse maxLength chunks.flatten) :=
  decodeStream_of_fitsMemory parse (fitsMemory_of_lines hmem)

/-- With `max_length = usize::MAX`, for `"a\r\nb"` cut after its first byte. -/
theorem decodeStream_eq_reference_unlimited :
    decodeStream (Except.ok : List UInt8 → Except Unit (List UInt8)) (UInt64.ofNat usizeMax)
        [[97], [13, 10, 98]] =
      some (reference Except.ok (UInt64.ofNat usizeMax) [97, 13, 10, 98]) :=
  decodeStream_eq_reference Except.ok (UInt64.ofNat usizeMax) [[97], [13, 10, 98]]
    fun _ => by decide

example : reference (Except.ok : List UInt8 → Except Unit (List UInt8)) 2
    [97, 13, 10, 98, 98, 98, 10, 13] = [.ok [97], .error .maxLineLengthExceeded] := by
  decide

end JsonRpcMessageCodec

end Rmcp
