import Rmcp.Transport.CodecCorrect

/-!
# Messages as lines

The encoder writes a message and ends the line. What comes out of the decoder for such a stream
is known line by line, however it is cut into chunks. So the messages come back as long as
their text has no line end of its own, ends with no carriage return, and is read as the message
that it was written for; what `serde_json` writes is like that.

Results:
1. `decodeStream_lines`: what the decoder yields for terminated lines.
2. `encodeAll_eq`: the buffer that the messages are encoded into.
3. `framing_round_trip`: they are decoded again.
-/

namespace Rmcp

namespace JsonRpcMessageCodec

variable {T E : Type}

/-- The maximal length of a line by default. -/
def defaultMaxLength : UInt64 := UInt64.ofNat usizeMax

/-! ## Terminated lines -/

/-- A stream of terminated lines splits into them, and an empty rest. -/
theorem splitOn_lines {lines : List (List UInt8)} (hlines : ∀ line ∈ lines, newline ∉ line) :
    (lines.flatMap (· ++ [newline])).splitOn newline = lines ++ [[]] := by
  induction lines with
  | nil => rfl
  | cons line lines ih =>
    have hrest := ih fun l hl => hlines l (List.mem_cons_of_mem _ hl)
    rw [List.flatMap_cons, List.append_assoc, List.singleton_append,
      splitOn_line (hlines line List.mem_cons_self), hrest]
    rfl

theorem segmentResults_lines (parse : List UInt8 → Except E T) (maxLength : UInt64)
    (lines : List (List UInt8)) :
    segmentResults parse maxLength (lines ++ [[]]) = lines.map (lineResult parse maxLength) := by
  induction lines with
  | nil => rfl
  | cons line lines ih =>
    rw [List.map_cons, ← ih]
    cases lines <;> rfl

/-- Every line gives its result, however the lines are cut into chunks. -/
theorem decodeStream_lines (parse : List UInt8 → Except E T) {maxLength : UInt64}
    {lines chunks : List (List UInt8)} (hlines : ∀ line ∈ lines, newline ∉ line)
    (hlength : maxLength.toNat = usizeMax → ∀ line ∈ lines, line.length < usizeMax)
    (hchunks : chunks.flatten = lines.flatMap (· ++ [newline])) :
    decodeStream parse maxLength chunks = some (lines.map (lineResult parse maxLength)) := by
  have hsplit := splitOn_lines hlines
  rw [decodeStream_of_fitsMemory, hchunks, reference, hsplit, segmentResults_lines]
  refine fitsMemory_of_lines fun hmax line hline => ?_
  rw [hchunks, hsplit] at hline
  rcases List.mem_append.mp hline with hline | hline
  · exact hlength hmax line hline
  · rw [List.mem_singleton.mp hline]
    decide

/-! ## The encoder -/

/-- `Encoder::encode`: what it returns, and the buffer it leaves. `toWriter` is what is written
for a message, and whether that succeeds. -/
def encode (toWriter : T → List UInt8 × Except E Unit) (item : T) (buf : List UInt8) :
    Except (JsonRpcMessageCodecError E) Unit × List UInt8 :=
  match toWriter item with
  | (written, .ok ()) => (.ok (), buf ++ written ++ [newline])
  | (written, .error e) => (.error (.serde e), buf ++ written)

/-- Encode the messages one after another, up to the first one that fails. -/
def encodeAll (toWriter : T → List UInt8 × Except E Unit) :
    List T → List UInt8 → Except (JsonRpcMessageCodecError E) Unit × List UInt8
  | [], buf => (.ok (), buf)
  | item :: items, buf =>
    match encode toWriter item buf with
    | (.ok (), buf) => encodeAll toWriter items buf
    | (.error e, buf) => (.error e, buf)

/-- What `serde_json` does with a message: it is written as compact JSON, where a string has its
control characters escaped, and what is written is read as the message. -/
structure CompactJson (toWriter : T → List UInt8 × Except E Unit)
    (fromSlice : List UInt8 → Except E T) (item : T) : Prop where
  succeeds : (toWriter item).2 = .ok ()
  noNewline : newline ∉ (toWriter item).1
  noCarriageReturn : (toWriter item).1.getLast? ≠ some carriageReturn
  inverse : fromSlice (toWriter item).1 = .ok item

section RoundTrip

variable {toWriter : T → List UInt8 × Except E Unit} {fromSlice : List UInt8 → Except E T}
  {items : List T} {maxLength : UInt64}

theorem encode_eq {item : T} (h : (toWriter item).2 = .ok ()) (buf : List UInt8) :
    encode toWriter item buf = (.ok (), buf ++ ((toWriter item).1 ++ [newline])) := by
  unfold encode
  split
  · next written heq => simp [heq]
  · next written e heq =>
    rw [heq] at h
    cases h

theorem encodeAll_eq (h : ∀ item ∈ items, (toWriter item).2 = .ok ()) (buf : List UInt8) :
    encodeAll toWriter items buf =
      (.ok (), buf ++ (items.map fun item => (toWriter item).1).flatMap (· ++ [newline])) := by
  induction items generalizing buf with
  | nil => simp [encodeAll]
  | cons item items ih =>
    have hrest := ih fun i hi => h i (List.mem_cons_of_mem _ hi)
    simp only [encodeAll, encode_eq (h item List.mem_cons_self), hrest, List.map_cons,
      List.flatMap_cons, List.append_assoc]

/-- The line of a message that is not too long is read as the message. -/
theorem lineResult_written {item : T} (h : CompactJson toWriter fromSlice item)
    (hlength : (toWriter item).1.length ≤ maxLength.toNat) :
    lineResult fromSlice maxLength (toWriter item).1 = .ok item := by
  have hline : withoutCarriageReturn (toWriter item).1 = (toWriter item).1 :=
    if_neg h.noCarriageReturn
  rw [lineResult, if_neg (Nat.not_lt.mpr hlength), parseLine, hline, h.inverse]
  rfl

theorem decodeStream_encoded (h : ∀ item ∈ items, CompactJson toWriter fromSlice item)
    (hlength : ∀ item ∈ items, (toWriter item).1.length ≤ maxLength.toNat)
    (hmem : ∀ item ∈ items, (toWriter item).1.length < usizeMax) {chunks : List (List UInt8)}
    (hchunks : chunks.flatten = (encodeAll toWriter items []).2) :
    decodeStream fromSlice maxLength chunks = some (items.map .ok) := by
  have hlines : ∀ line ∈ items.map fun item => (toWriter item).1,
      newline ∉ line ∧ line.length < usizeMax := by
    intro line hline
    obtain ⟨item, hitem, rfl⟩ := List.mem_map.mp hline
    exact ⟨(h item hitem).noNewline, hmem item hitem⟩
  rw [encodeAll_eq fun item hitem => (h item hitem).succeeds] at hchunks
  rw [decodeStream_lines fromSlice (fun line hline => (hlines line hline).1)
    (fun _ line hline => (hlines line hline).2) hchunks, List.map_map]
  refine congrArg some (List.map_congr_left fun item hitem => ?_)
  exact lineResult_written (h item hitem) (hlength item hitem)

/-- What the messages are encoded as is decoded as the messages, however it is cut into chunks,
by a codec whose lines may be as long as each of them. By default a line may be as long as
memory has room for. -/
theorem framing_round_trip (toWriter : T → List UInt8 × Except E Unit)
    (fromSlice : List UInt8 → Except E T) (items : List T)
    (hjson : ∀ item ∈ items, CompactJson toWriter fromSlice item)
    (hmem : ∀ item ∈ items, (toWriter item).1.length < usizeMax) :
    ∃ stream, encodeAll toWriter items [] = (.ok (), stream) ∧
      ∀ chunks : List (List UInt8), chunks.flatten = stream →
        decodeStream fromSlice defaultMaxLength chunks = some (items.map .ok) ∧
        ∀ maxLength : UInt64, (∀ item ∈ items, (toWriter item).1.length ≤ maxLength.toNat) →
          decodeStream fromSlice maxLength chunks = some (items.map .ok) := by
  refine ⟨_, encodeAll_eq (fun item hitem => (hjson item hitem).succeeds) [], fun chunks hchunks =>
    ?_⟩
  have hstream : chunks.flatten = (encodeAll toWriter items []).2 := by
    rw [encodeAll_eq fun item hitem => (hjson item hitem).succeeds, hchunks]
  refine ⟨decodeStream_encoded hjson (fun item hitem => ?_) hmem hstream,
    fun maxLength hlength => decodeStream_encoded hjson hlength hmem hstream⟩
  exact Nat.le_of_lt (hmem item hitem)

end RoundTrip

/-- The digits of a number in decimal, and the number they are read as. -/
def digitJson (n : Fin 10) : List UInt8 × Except Unit Unit := ([48 + UInt8.ofNat n], .ok ())

def readDigit : List UInt8 → Except Unit (Fin 10)
  | [b] => if h : (b - 48).toNat < 10 then .ok ⟨(b - 48).toNat, h⟩ else .error ()
  | _ => .error ()

/-- Two messages, which come in three chunks. -/
theorem framing_round_trip_digits :
    encodeAll digitJson [4, 2] [] = (.ok (), [52, 10, 50, 10]) ∧
      decodeStream readDigit 1 [[52], [10, 50], [10]] = some [.ok 4, .ok 2] := by
  have hjson : ∀ item ∈ [4, 2], CompactJson digitJson readDigit item := by
    intro item _
    constructor <;> revert item <;> decide
  obtain ⟨stream, hencoded, hdecoded⟩ := framing_round_trip digitJson readDigit [4, 2] hjson
    (by decide)
  have hstream : encodeAll digitJson [4, 2] [] = (.ok (), [52, 10, 50, 10]) := rfl
  rw [hstream] at hencoded
  cases hencoded
  exact ⟨hstream, (hdecoded [[52], [10, 50], [10]] rfl).2 1 (by decide)⟩

end JsonRpcMessageCodec

end Rmcp
