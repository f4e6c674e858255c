import Rmcp.Transport.Framing

/-!
# Byte pipes

One direction of two `AsyncRwTransport`s that are connected: the bytes that the writer of one of
them has put out, and the reader of the other one with its buffer and its codec. The bytes arrive
in chunks of any size, whenever they like.

As long as what is written is compact JSON, the pipe is a queue of messages.

Results:
1. `Holds.write`, `Holds.read`: what the pipe holds after a send, and after some bytes have arrived.
2. `Holds.poll`: the reader yields the first message when its line has arrived, and nothing else.
-/

namespace Rmcp

open JsonRpcMessageCodec

structure Pipe where
  /-- What is written and has not been read. -/
  wire : List UInt8
  codec : JsonRpcMessageCodec
  buf : List UInt8

/-- `Result::transpose`. -/
def JsonRpcMessageCodec.result? {T E : Type} : Decoded T E → Option (LineResult T E)
  | .ok none => none
  | .ok (some item) => some (.ok item)
  | .error e => some (.error e)

namespace Pipe

variable {T E : Type}

/-- What `poll_next` returns. -/
inductive Polled (T E : Type)
  | pending
  | ready (result : Option (LineResult T E))

def new : Pipe := ⟨[], .new, []⟩

/-- Messages are sent. -/
def write (toWriter : T → List UInt8 × Except E Unit) (items : List T) (p : Pipe) : Pipe :=
  { p with wire := (encodeAll toWriter items p.wire).2 }

/-- A chunk of `n` bytes arrives. -/
def read (n : Nat) (p : Pipe) : Pipe :=
  { p with wire := p.wire.drop n, buf := p.buf ++ p.wire.take n }

/-- `FramedRead::poll_next` with what has arrived. The stream is at its end when the writer is gone
and everything has been read. -/
def poll (parse : List UInt8 → Except E T) (closed : Bool) (p : Pipe) :
    Option (Polled T E × Pipe) :=
  (decode parse p.codec p.buf).bind fun (out, codec, buf) =>
    match result? out with
    | some result => some (.ready (some result), { p with codec, buf })
    | none =>
      if closed = true ∧ p.wire = [] then
        (decodeEof parse codec buf).map fun (out, codec, buf) =>
          (.ready (result? out), { p with codec, buf })
      else some (.pending, { p with codec, buf })

/-! ## What a pipe holds -/

/-- The line that a message is written as. -/
def lineOf (toWriter : T → List UInt8 × Except E Unit) (item : T) : List UInt8 :=
  (toWriter item).1 ++ [newline]

/-- The bytes that have not been decoded are the lines of these messages. -/
structure Holds (toWriter : T → List UInt8 × Except E Unit) (p : Pipe) (items : List T) :
    Prop where
  bytes : p.buf ++ p.wire = items.flatMap (lineOf toWriter)
  searched : Searched p.codec p.buf
  inLine : p.codec.isDiscarding = false
  maxLength : p.codec.maxLength = defaultMaxLength

variable {toWriter : T → List UInt8 × Except E Unit} {fromSlice : List UInt8 → Except E T}
  {p : Pipe} {items : List T}

theorem holds_new : new.Holds toWriter [] := ⟨rfl, searched_zero rfl, rfl, rfl⟩

theorem Holds.write (h : p.Holds toWriter items) {sent : List T}
    (hsent : ∀ item ∈ sent, (toWriter item).2 = .ok ()) :
    (p.write toWriter sent).Holds toWriter (items ++ sent) := by
  refine ⟨?_, h.searched, h.inLine, h.maxLength⟩
  have hlines : (sent.map fun item => (toWriter item).1).flatMap (· ++ [newline]) =
      sent.flatMap (lineOf toWriter) := List.flatMap_map ..
  show p.buf ++ (encodeAll toWriter sent p.wire).2 = _
  rw [encodeAll_eq hsent, hlines, ← List.append_assoc, h.bytes, List.flatMap_append]

theorem Holds.read (h : p.Holds toWriter items) (n : Nat) : (p.read n).Holds toWriter items := by
  refine ⟨?_, h.searched.append _, h.inLine, h.maxLength⟩
  show (p.buf ++ p.wire.take n) ++ p.wire.drop n = _
  rw [List.append_assoc, List.take_append_drop, h.bytes]

/-- A message whose line comes back. -/
structure Sendable (toWriter : T → List UInt8 × Except E Unit)
    (fromSlice : List UInt8 → Except E T) (item : T) : Prop extends
    CompactJson toWriter fromSlice item where
  fits : (toWriter item).1.length < usizeMax

/-- The first line of a stream is one only. -/
theorem line_inj {line line' rest rest' : List UInt8} (hline : newline ∉ line)
    (hline' : newline ∉ line') (h : line ++ newline :: rest = line' ++ newline :: rest') :
    line = line' ∧ rest = rest' := by
  have hsplit := congrArg (·.splitOn newline) h
  simp only [splitOn_line hline, splitOn_line hline', List.cons.injEq] at hsplit
  obtain ⟨rfl, -⟩ := hsplit
  exact ⟨rfl, (List.cons.inj (List.append_cancel_left h)).2⟩

/-- A buffer with a line end begins with the line of the first message. -/
theorem line_arrived (hitems : ∀ item ∈ items, newline ∉ (toWriter item).1)
    (hbytes : p.buf ++ p.wire = items.flatMap (lineOf toWriter)) (harrived : newline ∈ p.buf) :
    ∃ item rest buf, items = item :: rest ∧ p.buf = (toWriter item).1 ++ newline :: buf ∧
      buf ++ p.wire = rest.flatMap (lineOf toWriter) := by
  obtain ⟨line, buf, hbuf, hline⟩ := List.eq_append_cons_of_mem harrived
  cases items with
  | nil => simp [hbuf] at hbytes
  | cons item rest =>
    have hfirst : line ++ newline :: (buf ++ p.wire) =
        (toWriter item).1 ++ newline :: rest.flatMap (lineOf toWriter) := by
      simpa [hbuf, lineOf] using hbytes
    obtain ⟨rfl, hrest⟩ := line_inj hline (hitems item List.mem_cons_self) hfirst
    exact ⟨item, rest, buf, rfl, hbuf, hrest⟩

/-- A buffer without a line end is part of one line. -/
theorem length_lt_of_pending (hitems : ∀ item ∈ items, (toWriter item).1.length < usizeMax)
    (hbytes : p.buf ++ p.wire = items.flatMap (lineOf toWriter)) (hpending : newline ∉ p.buf) :
    p.buf.length < usizeMax := by
  cases items with
  | nil =>
    rw [(List.append_eq_nil_iff.mp hbytes).1]
    decide
  | cons item rest =>
    refine Nat.lt_of_le_of_lt ?_ (hitems item List.mem_cons_self)
    have hprefix : (toWriter item).1 ++ newline :: rest.flatMap (lineOf toWriter) =
        p.buf ++ p.wire := by
      simp [hbytes, lineOf]
    by_contra hlonger
    have hline : (toWriter item).1 ++ [newline] <+: p.buf := by
      have hfirst : (toWriter item).1 ++ [newline] <+: p.buf ++ p.wire :=
        ⟨_, by rw [List.append_assoc, List.singleton_append, hprefix]⟩
      refine List.prefix_of_prefix_length_le hfirst (List.prefix_append _ _) ?_
      rw [List.length_append, List.length_singleton]
      omega
    exact hpending (hline.subset (by simp))

theorem Holds.maxLength_eq (h : p.Holds toWriter items) : p.codec.maxLength.toNat = usizeMax := by
  rw [h.maxLength]
  rfl

/-- The first message is decoded when its line has arrived. -/
theorem Holds.decode_line (h : p.Holds toWriter items)
    (hitems : ∀ item ∈ items, Sendable toWriter fromSlice item) (harrived : newline ∈ p.buf) :
    ∃ item rest buf, items = item :: rest ∧
      decode fromSlice p.codec p.buf =
        some (.ok (some item), { p.codec with nextIndex := 0 }, buf) ∧
      Holds toWriter ⟨p.wire, { p.codec with nextIndex := 0 }, buf⟩ rest := by
  obtain ⟨item, rest, buf, rfl, hbuf, hrest⟩ :=
    line_arrived (fun item hitem => (hitems item hitem).noNewline) h.bytes harrived
  have hitem := hitems item List.mem_cons_self
  have hrange := Nat.not_lt.mpr h.searched.inRange
  refine ⟨item, rest, buf, rfl, ?_, hrest, searched_zero rfl, h.inLine, h.maxLength⟩
  cases hn : p.codec.newlineOffset p.buf with
  | none =>
    -- the line end is within what is searched
    refine absurd ?_ (newlineOffset_none h.searched hn)
    have hfits := hitem.fits
    have hmax := h.maxLength_eq
    have hline : (toWriter item).1 ++ [newline] <+: p.buf.take (p.codec.readTo p.buf) := by
      refine List.prefix_take_iff.mpr ⟨⟨buf, by simp [hbuf]⟩, ?_⟩
      simp only [readTo, hbuf, List.length_append, List.length_cons, List.length_nil]
      omega
    exact hline.subset (by simp)
  | some offset =>
    obtain ⟨hline, hsplit, -⟩ := newlineOffset_some h.searched hn
    obtain ⟨htake, hdrop⟩ := line_inj hline hitem.noNewline (hsplit.symm.trans hbuf)
    have hlast : withoutCarriageReturn (toWriter item).1 = (toWriter item).1 :=
      if_neg hitem.noCarriageReturn
    rw [decode_line hrange h.inLine hn, htake, hdrop, parseLine, hlast, hitem.inverse]
    rfl

/-- Nothing is decoded as long as no line has arrived. -/
theorem Holds.decode_pending (h : p.Holds toWriter items)
    (hitems : ∀ item ∈ items, Sendable toWriter fromSlice item) (hpending : newline ∉ p.buf) :
    ∃ codec, decode fromSlice p.codec p.buf = some (.ok none, codec, p.buf) ∧
      Holds toWriter { p with codec } items := by
  have hlength := length_lt_of_pending (fun item hitem => (hitems item hitem).fits) h.bytes hpending
  have hn : p.codec.newlineOffset p.buf = none := by
    by_contra hsome
    obtain ⟨offset, hn⟩ := Option.ne_none_iff_exists'.mp hsome
    obtain ⟨-, hsplit, -⟩ := newlineOffset_some h.searched hn
    exact hpending (hsplit ▸ by simp)
  have hdecode : decode fromSlice p.codec p.buf =
      some (.ok none, { p.codec with nextIndex := p.codec.readTo p.buf }, p.buf) := by
    refine decode_need_more (Nat.not_lt.mpr h.searched.inRange) h.inLine hn ?_
    rw [h.maxLength_eq]
    omega
  refine ⟨_, hdecode, h.bytes, ⟨Nat.le_refl _, fun hmem => ?_⟩, h.inLine, h.maxLength⟩
  exact hpending (List.mem_of_mem_take hmem)

/-- What the reader does with what has arrived: it yields the first message when its line is
complete, comes to the end when nothing is left, and waits otherwise. -/
theorem Holds.poll (h : p.Holds toWriter items)
    (hitems : ∀ item ∈ items, Sendable toWriter fromSlice item) (closed : Bool) :
    (∃ item rest p', newline ∈ p.buf ∧ items = item :: rest ∧ p'.Holds toWriter rest ∧
      p.poll fromSlice closed = some (.ready (some (.ok item)), p')) ∨
    (∃ p', items = [] ∧ closed = true ∧ p'.Holds toWriter [] ∧
      p.poll fromSlice closed = some (.ready none, p')) ∨
    (∃ p', newline ∉ p.buf ∧ (closed = true → p.wire ≠ []) ∧ p'.Holds toWriter items ∧
      p.poll fromSlice closed = some (.pending, p')) := by
  by_cases harrived : newline ∈ p.buf
  · obtain ⟨item, rest, buf, rfl, hdecode, hrest⟩ := h.decode_line hitems harrived
    refine .inl ⟨item, rest, _, harrived, rfl, hrest, ?_⟩
    simp [Pipe.poll, hdecode, result?]
  · obtain ⟨codec, hdecode, hsame⟩ := h.decode_pending hitems harrived
    by_cases hend : closed = true ∧ p.wire = []
    · -- what has been written ends with a line end
      have hnone : items = [] ∧ p.buf = [] := by
        have hbytes := h.bytes
        rw [hend.2, List.append_nil] at hbytes
        cases items with
        | nil => exact ⟨rfl, hbytes⟩
        | cons item rest => exact absurd (hbytes ▸ by simp [lineOf]) harrived
      obtain ⟨rfl, hbuf⟩ := hnone
      obtain ⟨codec', hagain, hsame'⟩ := hsame.decode_pending hitems harrived
      have heof : decodeEof fromSlice codec p.buf =
          some (.ok none, { codec' with nextIndex := 0 }, p.buf) := by
        rw [hbuf] at hagain
        simp [decodeEof, hbuf, hagain]
      refine .inr (.inl ⟨⟨p.wire, { codec' with nextIndex := 0 }, p.buf⟩, rfl, hend.1,
        ⟨hsame'.bytes, searched_zero rfl, hsame'.inLine, hsame'.maxLength⟩, ?_⟩)
      simp [Pipe.poll, hdecode, result?, hend, heof]
    · refine .inr (.inr ⟨_, harrived, fun hclosed hempty => hend ⟨hclosed, hempty⟩, hsame, ?_⟩)
      simp [Pipe.poll, hdecode, result?, hend]

end Pipe

end Rmcp
