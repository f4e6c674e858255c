import Mathlib.Tactic.Common
import Mathlib.Algebra.Group.Nat.Defs

/-!
# The line codec

`JsonRpcMessageCodec` cuts a byte stream into lines and hands each line to a payload
parser. Its state between calls is the position from which the search for a newline
resumes, and whether it is discarding a line that was too long. The buffer is the list
of bytes received and not yet consumed.

`decode` and `decodeEof` are total here: the loop ends because every turn that goes
round again has consumed at least one byte. The only way for them to fail is the slice
`buf[next_index..read_to]`, which panics when it is out of range (`none`).

`decodeStream` drives the codec over a stream that arrives in chunks: append a chunk, call
`decode` until it asks for more input, and at the end of the stream call `decode_eof`
until it has nothing left. It goes on after an error.
-/

namespace Rmcp

/-- `usize::MAX` on a 64-bit target. -/
def usizeMax : Nat := 2 ^ 64 - 1

/-- The byte `'\n'`. -/
def newline : UInt8 := 10

/-- The byte `'\r'`. -/
def carriageReturn : UInt8 := 13

structure JsonRpcMessageCodec where
  nextIndex : Nat
  maxLength : UInt64
  isDiscarding : Bool
deriving DecidableEq

inductive JsonRpcMessageCodecError (E : Type)
  | maxLineLengthExceeded
  | serde (e : E)
deriving DecidableEq

/-- `Result<Option<Item>, JsonRpcMessageCodecError>`. -/
abbrev Decoded (T E : Type) := Except (JsonRpcMessageCodecError E) (Option T)

/-- `Result<Item, JsonRpcMessageCodecError>`: what one line gives. -/
abbrev LineResult (T E : Type) := Except (JsonRpcMessageCodecError E) T

def withoutCarriageReturn (s : List UInt8) : List UInt8 :=
  if s.getLast? = some carriageReturn then s.take (s.length - 1) else s

namespace JsonRpcMessageCodec

def new : JsonRpcMessageCodec := ⟨0, UInt64.ofNat usizeMax, false⟩

def newWithMaxLength (maxLength : UInt64) : JsonRpcMessageCodec :=
  { new with maxLength := maxLength }

/-- How far into the buffer a newline is searched for:
`min(max_length.saturating_add(1), buf.len())`. -/
def readTo (c : JsonRpcMessageCodec) (buf : List UInt8) : Nat :=
  min (min (c.maxLength.toNat + 1) usizeMax) buf.length

/-- The position of the first newline in `buf[next_index..read_to]`. -/
def newlineOffset (c : JsonRpcMessageCodec) (buf : List UInt8) : Option Nat :=
  ((buf.take (c.readTo buf)).drop c.nextIndex).findIdx? (· == newline)

variable {T E : Type}

theorem newlineOffset_lt {c : JsonRpcMessageCodec} {buf : List UInt8} {offset : Nat}
    (h : c.newlineOffset buf = some offset) : c.nextIndex + offset < buf.length := by
  obtain ⟨hlt, -⟩ := List.findIdx?_eq_some_iff_getElem.mp h
  simp only [List.length_drop, List.length_take] at hlt
  omega

theorem readTo_pos {c : JsonRpcMessageCodec} {buf : List UInt8} (h : buf ≠ []) :
    0 < c.readTo buf := by
  have := List.length_pos_iff.mpr h
  have : 0 < usizeMax := by decide
  unfold readTo
  omega

/-- The parse of one line with its newline cut off. -/
def parseLine (parse : List UInt8 → Except E T) (line : List UInt8) : LineResult T E :=
  (parse (withoutCarriageReturn line)).mapError .serde

/-- `Decoder::decode`: the result, and the codec and the buffer it leaves. -/
def decode (parse : List UInt8 → Except E T) (c : JsonRpcMessageCodec) (buf : List UInt8) :
    Option (Decoded T E × JsonRpcMessageCodec × List UInt8) :=
  if c.readTo buf < c.nextIndex then none
  else
    match hd : c.isDiscarding, hn : c.newlineOffset buf with
    | true, some offset =>
      -- the end of the discarded line: go on with the next one
      decode parse { c with isDiscarding := false, nextIndex := 0 }
        (buf.drop (offset + c.nextIndex + 1))
    | true, none =>
      if _h : buf.drop (c.readTo buf) = [] then
        some (.ok none, { c with nextIndex := 0 }, buf.drop (c.readTo buf))
      else decode parse { c with nextIndex := 0 } (buf.drop (c.readTo buf))
    | false, some offset =>
      let newlineIndex := offset + c.nextIndex
      some ((parseLine parse (buf.take newlineIndex)).map some, { c with nextIndex := 0 },
        buf.drop (newlineIndex + 1))
    | false, none =>
      if c.maxLength.toNat < buf.length then
        -- the search position is kept: the next call discards from there
        some (.error .maxLineLengthExceeded, { c with isDiscarding := true }, buf)
      else some (.ok none, { c with nextIndex := c.readTo buf }, buf)
termination_by buf.length
decreasing_by
  · have := newlineOffset_lt hn
    simp only [List.length_drop]
    omega
  · have hbuf : buf ≠ [] := fun hnil => _h (by simp [hnil])
    have := List.length_pos_iff.mpr hbuf
    have := readTo_pos (c := c) hbuf
    simp only [List.length_drop]
    omega

section Branches

variable {parse : List UInt8 → Except E T} {c : JsonRpcMessageCodec} {buf : List UInt8}
  {offset : Nat}

theorem decode_out_of_range (hr : c.readTo buf < c.nextIndex) : decode parse c buf = none := by
  rw [decode, if_pos hr]

theorem decode_discard_line (hr : ¬ c.readTo buf < c.nextIndex) (hd : c.isDiscarding = true)
    (hn : c.newlineOffset buf = some offset) :
    decode parse c buf =
      decode parse { c with isDiscarding := false, nextIndex := 0 }
        (buf.drop (offset + c.nextIndex + 1)) := by
  rw [decode, if_neg hr]
  split <;> simp_all

theorem decode_discard_all (hr : ¬ c.readTo buf < c.nextIndex) (hd : c.isDiscarding = true)
    (hn : c.newlineOffset buf = none) (hnil : buf.drop (c.readTo buf) = []) :
    decode parse c buf = some (.ok none, { c with nextIndex := 0 }, []) := by
  rw [decode, if_neg hr]
  split <;> simp_all

theorem decode_discard_more (hr : ¬ c.readTo buf < c.nextIndex) (hd : c.isDiscarding = true)
    (hn : c.newlineOffset buf = none) (hnil : buf.drop (c.readTo buf) ≠ []) :
    decode parse c buf = decode parse { c with nextIndex := 0 } (buf.drop (c.readTo buf)) := by
  rw [decode, if_neg hr]
  split
  case h_2 => exact dif_neg hnil
  all_goals simp_all

theorem decode_line (hr : ¬ c.readTo buf < c.nextIndex) (hd : c.isDiscarding = false)
    (hn : c.newlineOffset buf = some offset) :
    decode parse c buf =
      some ((parseLine parse (buf.take (offset + c.nextIndex))).map some,
        { c with nextIndex := 0 }, buf.drop (offset + c.nextIndex + 1)) := by
  rw [decode, if_neg hr]
  split <;> simp_all

theorem decode_too_long (hr : ¬ c.readTo buf < c.nextIndex) (hd : c.isDiscarding = false)
    (hn : c.newlineOffset buf = none) (hlen : c.maxLength.toNat < buf.length) :
    decode parse c buf =
      some (.error .maxLineLengthExceeded, { c with isDiscarding := true }, buf) := by
  rw [decode, if_neg hr]
  split <;> simp_all

theorem decode_need_more (hr : ¬ c.readTo buf < c.nextIndex) (hd : c.isDiscarding = false)
    (hn : c.newlineOffset buf = none) (hlen : ¬ c.maxLength.toNat < buf.length) :
    decode parse c buf = some (.ok none, { c with nextIndex := c.readTo buf }, buf) := by
  rw [decode, if_neg hr]
  split <;> simp_all

end Branches

/-- `Decoder::decode_eof`. -/
def decodeEof (parse : List UInt8 → Except E T) (c : JsonRpcMessageCodec) (buf : List UInt8) :
    Option (Decoded T E × JsonRpcMessageCodec × List UInt8) :=
  match decode parse c buf with
  | some (.ok none, c, buf) =>
    let c := { c with nextIndex := 0 }
    -- no terminating newline: what is left is the last line, if there is anything
    if buf = [] ∨ buf = [carriageReturn] then some (.ok none, c, buf)
    else some ((parseLine parse buf).map some, c, [])
  | result => result

/-! ## Driving the codec -/

/-- Bounds the number of calls that can return something: a call that returns a line or a
parse error consumes at least one byte, and the length error starts discarding. -/
def fuel (c : JsonRpcMessageCodec) (buf : List UInt8) : Nat :=
  2 * buf.length + if c.isDiscarding then 0 else 1

theorem decode_fuel {parse : List UInt8 → Except E T} {c c' : JsonRpcMessageCodec}
    {buf buf' : List UInt8} {out : Decoded T E} (h : decode parse c buf = some (out, c', buf')) :
    buf'.length ≤ buf.length ∧ (out ≠ .ok none → fuel c' buf' < fuel c buf) := by
  induction c, buf using decode.induct with
  | case1 c buf hr =>
    rw [decode_out_of_range hr] at h
    cases h
  | case2 c buf hr offset hd hn ih =>
    rw [decode_discard_line hr hd hn] at h
    obtain ⟨hlen, hfuel⟩ := ih h
    have := newlineOffset_lt hn
    simp only [List.length_drop] at hlen
    refine ⟨by omega, fun hout => ?_⟩
    have := hfuel hout
    simp only [fuel, hd, List.length_drop, Bool.false_eq_true, ↓reduceIte] at this ⊢
    omega
  | case3 c buf hr hd hn hnil =>
    rw [decode_discard_all hr hd hn hnil] at h
    cases h
    exact ⟨by simp, fun hout => absurd rfl hout⟩
  | case4 c buf hr hd hn hnil ih =>
    rw [decode_discard_more hr hd hn hnil] at h
    obtain ⟨hlen, hfuel⟩ := ih h
    simp only [List.length_drop] at hlen
    refine ⟨by omega, fun hout => ?_⟩
    have := hfuel hout
    simp only [fuel, hd, List.length_drop, ↓reduceIte] at this ⊢
    omega
  | case5 c buf hr offset hd hn =>
    rw [decode_line hr hd hn] at h
    cases h
    have := newlineOffset_lt hn
    refine ⟨by simp, fun _ => ?_⟩
    simp only [fuel, hd, List.length_drop]
    omega
  | case6 c buf hr hd hn hlen =>
    rw [decode_too_long hr hd hn hlen] at h
    cases h
    exact ⟨Nat.le_refl _, fun _ => by simp [fuel, hd]⟩
  | case7 c buf hr hd hn hlen =>
    rw [decode_need_more hr hd hn hlen] at h
    cases h
    exact ⟨Nat.le_refl _, fun hout => absurd rfl hout⟩

theorem decodeEof_fuel {parse : List UInt8 → Except E T} {c c' : JsonRpcMessageCodec}
    {buf buf' : List UInt8} {out : Decoded T E} (h : decodeEof parse c buf = some (out, c', buf'))
    (hout : out ≠ .ok none) : fuel c' buf' < fuel c buf := by
  unfold decodeEof at h
  split at h
  · next c₁ buf₁ hdecode =>
    obtain ⟨hlen, -⟩ := decode_fuel hdecode
    split at h
    · cases h
      exact absurd rfl hout
    · next hrest =>
      cases h
      have := List.length_pos_iff.mpr fun hnil => hrest (.inl hnil)
      simp only [fuel, List.length_nil]
      split <;> omega
  · exact (decode_fuel h).2 hout

/-- Call `decode` until it returns `Ok(None)`, going on after an error. -/
def drain (parse : List UInt8 → Except E T) (c : JsonRpcMessageCodec) (buf : List UInt8) :
    Option (List (LineResult T E) × JsonRpcMessageCodec × List UInt8) :=
  match _h : decode parse c buf with
  | none => none
  | some (.ok none, c', buf') => some ([], c', buf')
  | some (.ok (some item), c', buf') =>
    (drain parse c' buf').map fun rest => (.ok item :: rest.1, rest.2)
  | some (.error e, c', buf') =>
    (drain parse c' buf').map fun rest => (.error e :: rest.1, rest.2)
termination_by fuel c buf
decreasing_by
  · exact (decode_fuel _h).2 (by simp)
  · exact (decode_fuel _h).2 (by simp)

/-- Call `decode_eof` until it returns `Ok(None)`, going on after an error. -/
def drainEof (parse : List UInt8 → Except E T) (c : JsonRpcMessageCodec) (buf : List UInt8) :
    Option (List (LineResult T E)) :=
  match _h : decodeEof parse c buf with
  | none => none
  | some (.ok none, _, _) => some []
  | some (.ok (some item), c', buf') => (drainEof parse c' buf').map (.ok item :: ·)
  | some (.error e, c', buf') => (drainEof parse c' buf').map (.error e :: ·)
termination_by fuel c buf
decreasing_by
  · exact decodeEof_fuel _h (by simp)
  · exact decodeEof_fuel _h (by simp)

section Drain

variable {parse : List UInt8 → Except E T} {c c' : JsonRpcMessageCodec} {buf buf' : List UInt8}

theorem drain_done (h : decode parse c buf = some (.ok none, c', buf')) :
    drain parse c buf = some ([], c', buf') := by
  rw [drain]
  split <;> simp_all

theorem drain_item {item : T} (h : decode parse c buf = some (.ok (some item), c', buf')) :
    drain parse c buf = (drain parse c' buf').map fun rest => (.ok item :: rest.1, rest.2) := by
  rw [drain]
  split <;> simp_all

theorem drain_error {e : JsonRpcMessageCodecError E}
    (h : decode parse c buf = some (.error e, c', buf')) :
    drain parse c buf = (drain parse c' buf').map fun rest => (.error e :: rest.1, rest.2) := by
  rw [drain]
  split <;> simp_all

theorem drainEof_done (h : decodeEof parse c buf = some (.ok none, c', buf')) :
    drainEof parse c buf = some [] := by
  rw [drainEof]
  split <;> simp_all

theorem drainEof_item {item : T}
    (h : decodeEof parse c buf = some (.ok (some item), c', buf')) :
    drainEof parse c buf = (drainEof parse c' buf').map (.ok item :: ·) := by
  rw [drainEof]
  split <;> simp_all

theorem drainEof_error {e : JsonRpcMessageCodecError E}
    (h : decodeEof parse c buf = some (.error e, c', buf')) :
    drainEof parse c buf = (drainEof parse c' buf').map (.error e :: ·) := by
  rw [drainEof]
  split <;> simp_all

end Drain

/-- Append each chunk to the buffer in turn and drain it. -/
def feed (parse : List UInt8 → Except E T) (c : JsonRpcMessageCodec) (buf : List UInt8) :
    List (List UInt8) → Option (List (LineResult T E) × JsonRpcMessageCodec × List UInt8)
  | [] => some ([], c, buf)
  | chunk :: chunks =>
    (drain parse c (buf ++ chunk)).bind fun first =>
      (feed parse first.2.1 first.2.2 chunks).map fun rest => (first.1 ++ rest.1, rest.2)

/-- Every result for a stream that arrives as `chunks`, for a new codec. -/
def decodeStream (parse : List UInt8 → Except E T) (maxLength : UInt64)
    (chunks : List (List UInt8)) : Option (List (LineResult T E)) :=
  (feed parse (newWithMaxLength maxLength) [] chunks).bind fun fed =>
    (drainEof parse fed.2.1 fed.2.2).map (fed.1 ++ ·)

end JsonRpcMessageCodec

end Rmcp
