import Rmcp.Service.Established
import Rmcp.Transport.BytePipe
import Rmcp.Model.Nested

/-!
# Conversations over byte streams

Two loops, each over an `AsyncRwTransport`. What a loop sends is encoded as a line, the bytes reach
the other side in chunks, and its codec decodes them again.

Such a pair goes through the same states as two loops over queues of messages, as long as each
message comes back from its line.

Results:
1. `Carries.step`: a step over byte streams is a step over queues, or no step.
2. `Carries.step_back`: a step over queues is a step over byte streams, once the bytes are there.
3. `piped_conversation`: so it is for runs of a client and a server, with the messages of MCP.
-/

namespace Rmcp.Service

/-- How messages are written, and how they are read. -/
structure Wiring (M F : Type) where
  toWriter : M → List UInt8 × Except F Unit
  fromSlice : List UInt8 → Except F M

section OneSide

variable {R : ServiceRole} {E F : Type}

/-- A loop makes a move of its own, and what the transport takes over is written. -/
def puts (w : Wiring (TxJsonRpcMessage R) F) (loop : Serve R E) (out : Pipe) (a : Action R E) :
    Option (Serve R E × Pipe) :=
  if a.isOfTransport then none
  else (step loop a).map fun loop' =>
    (loop', out.write w.toWriter (Connection.newlyAccepted loop loop'))

/-- A loop polls its transport. It is told of an error as of the end of the stream. -/
def gets (w : Wiring (RxJsonRpcMessage R) F) (loop : Serve R E) (inlet : Pipe) (closed : Bool) :
    Option (Serve R E × Pipe) :=
  (inlet.poll w.fromSlice closed).bind fun (polled, inlet) =>
    match polled with
    | .pending => some (loop, inlet)
    | .ready result => (step loop (.ofTransport (result.bind Except.toOption))).map (·, inlet)

/-- The message comes back from its line. -/
abbrev Wiring.Keeps {M : Type} (w : Wiring M F) (m : M) : Prop :=
  Pipe.Sendable w.toWriter w.fromSlice m

/-- The pipe is a queue of these messages. -/
abbrev Wiring.Queues {M : Type} (w : Wiring M F) (pipe : Pipe) (queue : List M) : Prop :=
  pipe.Holds w.toWriter queue

theorem puts_accepted {w : Wiring (TxJsonRpcMessage R) F} {loop loop' : Serve R E} {out out' : Pipe}
    {a : Action R E} (h : puts w loop out a = some (loop', out')) :
    loop.accepted ⊆ loop'.accepted := by
  obtain ⟨-, h⟩ := Option.ite_none_left_eq_some.mp h
  obtain ⟨loop', hstep, heq⟩ := Option.map_eq_some_iff.mp h
  cases heq
  exact (step_accepted hstep).subset

theorem gets_accepted {w : Wiring (RxJsonRpcMessage R) F} {loop loop' : Serve R E}
    {inlet inlet' : Pipe} {closed : Bool} (h : gets w loop inlet closed = some (loop', inlet')) :
    loop.accepted ⊆ loop'.accepted := by
  obtain ⟨⟨polled, p⟩, -, h⟩ := Option.bind_eq_some_iff.mp h
  cases polled with
  | pending =>
    cases h
    exact List.Subset.refl _
  | ready result =>
    obtain ⟨loop', hstep, heq⟩ := Option.map_eq_some_iff.mp h
    cases heq
    exact (step_accepted hstep).subset

theorem moves_of_puts {w : Wiring (TxJsonRpcMessage R) F} {loop loop' : Serve R E}
    {out out' : Pipe} {a : Action R E} {queue : List (TxJsonRpcMessage R)}
    (h : puts w loop out a = some (loop', out')) (hqueue : w.Queues out queue)
    (hkeeps : ∀ m ∈ loop'.accepted, w.Keeps m) :
    ∃ queue', moves loop queue a = some (loop', queue') ∧ w.Queues out' queue' := by
  obtain ⟨hown, h⟩ := Option.ite_none_left_eq_some.mp h
  obtain ⟨loop', hstep, heq⟩ := Option.map_eq_some_iff.mp h
  cases heq
  refine ⟨queue ++ Connection.newlyAccepted loop loop', by simp [moves, hown, hstep], ?_⟩
  refine hqueue.write fun m hm => (hkeeps m ?_).succeeds
  rw [← append_newlyAccepted hstep]
  exact List.mem_append_right _ hm

theorem puts_of_moves {w : Wiring (TxJsonRpcMessage R) F} {loop loop' : Serve R E}
    {out : Pipe} {a : Action R E} {queue queue' : List (TxJsonRpcMessage R)}
    (h : moves loop queue a = some (loop', queue')) (hqueue : w.Queues out queue)
    (hkeeps : ∀ m ∈ loop'.accepted, w.Keeps m) :
    ∃ out', puts w loop out a = some (loop', out') ∧ w.Queues out' queue' := by
  obtain ⟨hown, h⟩ := Option.ite_none_left_eq_some.mp h
  obtain ⟨loop', hstep, heq⟩ := Option.map_eq_some_iff.mp h
  cases heq
  refine ⟨_, by simp [puts, hown, hstep], hqueue.write fun m hm => (hkeeps m ?_).succeeds⟩
  rw [← append_newlyAccepted hstep]
  exact List.mem_append_right _ hm

theorem takes_of_gets {w : Wiring (RxJsonRpcMessage R) F} {loop loop' : Serve R E}
    {inlet inlet' : Pipe} {closed : Bool} {queue : List (RxJsonRpcMessage R)}
    (h : gets w loop inlet closed = some (loop', inlet')) (hqueue : w.Queues inlet queue)
    (hkeeps : ∀ m ∈ queue, w.Keeps m) :
    (loop' = loop ∧ w.Queues inlet' queue) ∨
      ∃ queue', takes loop queue closed = some (loop', queue') ∧ w.Queues inlet' queue' := by
  obtain ⟨⟨polled, inlet₁⟩, hpoll, h⟩ := Option.bind_eq_some_iff.mp h
  rcases hqueue.poll hkeeps closed with
    ⟨m, rest, p, -, rfl, hrest, hp⟩ | ⟨p, rfl, rfl, hrest, hp⟩ | ⟨p, -, -, hsame, hp⟩ <;>
    cases hpoll.symm.trans hp
  · obtain ⟨loop', hstep, heq⟩ := Option.map_eq_some_iff.mp h
    cases heq
    exact .inr ⟨rest, Option.map_eq_some_iff.mpr ⟨loop', hstep, rfl⟩, hrest⟩
  · obtain ⟨loop', hstep, heq⟩ := Option.map_eq_some_iff.mp h
    cases heq
    exact .inr ⟨[], Option.map_eq_some_iff.mpr ⟨loop', hstep, rfl⟩, hrest⟩
  · cases h
    exact .inl ⟨rfl, hsame⟩

theorem gets_of_ready {w : Wiring (RxJsonRpcMessage R) F} {loop loop' : Serve R E}
    {inlet inlet' : Pipe} {closed : Bool} {result : Option (LineResult (RxJsonRpcMessage R) F)}
    (h : inlet.poll w.fromSlice closed = some (.ready result, inlet'))
    (hstep : step loop (.ofTransport (result.bind Except.toOption)) = some loop') :
    gets w loop inlet closed = some (loop', inlet') := by
  rw [gets, h]
  exact Option.map_eq_some_iff.mpr ⟨loop', hstep, rfl⟩

/-- When all bytes have arrived, the loop can do with the pipe what it can do with the queue. -/
theorem gets_of_takes {w : Wiring (RxJsonRpcMessage R) F} {loop loop' : Serve R E}
    {inlet : Pipe} {closed : Bool} {queue queue' : List (RxJsonRpcMessage R)}
    (h : takes loop queue closed = some (loop', queue')) (hqueue : w.Queues inlet queue)
    (hkeeps : ∀ m ∈ queue, w.Keeps m) :
    ∃ inlet', gets w loop (inlet.read inlet.wire.length) closed = some (loop', inlet') ∧
      w.Queues inlet' queue' := by
  have hread := hqueue.read inlet.wire.length
  have hwire : (inlet.read inlet.wire.length).wire = [] := List.drop_length ..
  have hbytes := hread.bytes
  rw [hwire, List.append_nil] at hbytes
  rcases hread.poll hkeeps closed with
    ⟨m, rest, p, -, rfl, hrest, hp⟩ | ⟨p, rfl, rfl, hrest, hp⟩ | ⟨p, hpending, hopen, -, -⟩
  · obtain ⟨loop', hstep, heq⟩ := Option.map_eq_some_iff.mp h
    cases heq
    exact ⟨p, gets_of_ready hp hstep, hrest⟩
  · obtain ⟨loop', hstep, heq⟩ := Option.map_eq_some_iff.mp h
    cases heq
    exact ⟨p, gets_of_ready hp hstep, hrest⟩
  · cases queue with
    | nil =>
      obtain ⟨hclosed, -⟩ := Option.ite_none_right_eq_some.mp h
      exact absurd hwire (hopen hclosed)
    | cons m rest => exact absurd (hbytes ▸ by simp [Pipe.lineOf]) hpending

end OneSide

structure Piped (l : Link) (E : Type) where
  near : Serve l.near E
  far : Serve l.far E
  toFar : Pipe
  toNear : Pipe

/-- The wiring of both directions. -/
structure Wirings (l : Link) (F : Type) where
  toFar : Wiring (TxJsonRpcMessage l.near) F
  toNear : Wiring (TxJsonRpcMessage l.far) F

namespace Piped

inductive Action (l : Link) (E : Type)
  | near (a : Service.Action l.near E)
  | far (a : Service.Action l.far E)
  | nearReads (n : Nat)
  | farReads (n : Nat)
  | nearPolls
  | farPolls

variable {l : Link} {E F : Type}

def start (first token first' token' : UInt32) : Piped l E where
  near := .start first token
  far := .start first' token'
  toFar := .new
  toNear := .new

def step (w : Wirings l F) (s : Piped l E) : Action l E → Option (Piped l E)
  | .near a => (puts w.toFar s.near s.toFar a).map fun (near, toFar) => { s with near, toFar }
  | .far a => (puts w.toNear s.far s.toNear a).map fun (far, toNear) => { s with far, toNear }
  | .nearReads n => some { s with toNear := s.toNear.read n }
  | .farReads n => some { s with toFar := s.toFar.read n }
  | .nearPolls =>
    (gets w.toNear s.near s.toNear s.far.quit.isSome).map fun (near, toNear) =>
      { s with near, toNear }
  | .farPolls =>
    (gets w.toFar s.far s.toFar s.near.quit.isSome).map fun (far, toFar) => { s with far, toFar }

/-- The loops are the same, and the pipes hold what is in flight. -/
structure Carries (w : Wirings l F) (s : Piped l E) (t : Conversation l E) : Prop where
  near : t.near = s.near
  far : t.far = s.far
  toFar : w.toFar.Queues s.toFar t.toFar
  toNear : w.toNear.Queues s.toNear t.toNear

/-- All messages that the transports have taken come back from their lines. -/
structure Kept (w : Wirings l F) (near : Serve l.near E) (far : Serve l.far E) : Prop where
  toFar : ∀ m ∈ near.accepted, w.toFar.Keeps m
  toNear : ∀ m ∈ far.accepted, w.toNear.Keeps m

variable {w : Wirings l F} {s s' : Piped l E} {t t' : Conversation l E}

theorem Kept.mono {near near' : Serve l.near E} {far far' : Serve l.far E}
    (h : Kept w near' far') (hnear : near.accepted ⊆ near'.accepted)
    (hfar : far.accepted ⊆ far'.accepted) : Kept w near far :=
  ⟨fun m hm => h.toFar m (hnear hm), fun m hm => h.toNear m (hfar hm)⟩

theorem Kept.of_step {a : Action l E} (h : Kept w s'.near s'.far) (hs : step w s a = some s') :
    Kept w s.near s.far := by
  have hsame {α : Type} (l : List α) : l ⊆ l := List.Subset.refl l
  cases a with
  | near a =>
    obtain ⟨⟨near, toFar⟩, hputs, rfl⟩ := Option.map_eq_some_iff.mp hs
    exact h.mono (puts_accepted hputs) (hsame _)
  | far a =>
    obtain ⟨⟨far, toNear⟩, hputs, rfl⟩ := Option.map_eq_some_iff.mp hs
    exact h.mono (hsame _) (puts_accepted hputs)
  | nearReads n | farReads n =>
    cases hs
    exact h
  | nearPolls =>
    obtain ⟨⟨near, toNear⟩, hgets, rfl⟩ := Option.map_eq_some_iff.mp hs
    exact h.mono (gets_accepted hgets) (hsame _)
  | farPolls =>
    obtain ⟨⟨far, toFar⟩, hgets, rfl⟩ := Option.map_eq_some_iff.mp hs
    exact h.mono (hsame _) (gets_accepted hgets)

theorem Kept.of_conversation_step {b : Conversation.Action l E} (h : Kept w t'.near t'.far)
    (hs : t.step b = some t') : Kept w t.near t.far := by
  have hswap : t.swap.step b.swap = some t'.swap := by rw [Conversation.step_swap, hs]; rfl
  refine h.mono ?_ ?_
  · rcases Conversation.near_of_step hs with hsame | ⟨a, hstep⟩
    · exact fun m hm => hsame ▸ hm
    · exact (step_accepted hstep).subset
  · rcases Conversation.near_of_step hswap with hsame | ⟨a, hstep⟩
    · have hfar : t'.far = t.far := hsame
      exact fun m hm => hfar ▸ hm
    · exact (step_accepted hstep).subset

/-- A step over byte streams is a step over queues, or none that these know of. -/
theorem Carries.step {first token first' token' : UInt32} {a : Action l E} (h : Carries w s t)
    (hjoined : t.Joined first token first' token') (hkept : Kept w s'.near s'.far)
    (hs : Piped.step w s a = some s') :
    Carries w s' t ∨ ∃ b t', t.step b = some t' ∧ Carries w s' t' := by
  obtain ⟨near, far, toFar, toNear⟩ := t
  obtain ⟨rfl, rfl, hfar, hnear⟩ := h
  cases a with
  | near a =>
    obtain ⟨⟨near, toFar⟩, hputs, rfl⟩ := Option.map_eq_some_iff.mp hs
    obtain ⟨queue, hmoves, hqueue⟩ := moves_of_puts hputs hfar hkept.toFar
    exact .inr ⟨.near a, _, Option.map_eq_some_iff.mpr ⟨_, hmoves, rfl⟩, rfl, rfl, hqueue, hnear⟩
  | far a =>
    obtain ⟨⟨far, toNear⟩, hputs, rfl⟩ := Option.map_eq_some_iff.mp hs
    obtain ⟨queue, hmoves, hqueue⟩ := moves_of_puts hputs hnear hkept.toNear
    exact .inr ⟨.far a, _, Option.map_eq_some_iff.mpr ⟨_, hmoves, rfl⟩, rfl, rfl, hfar, hqueue⟩
  | nearReads n =>
    cases hs
    exact .inl ⟨rfl, rfl, hfar, hnear.read n⟩
  | farReads n =>
    cases hs
    exact .inl ⟨rfl, rfl, hfar.read n, hnear⟩
  | nearPolls =>
    obtain ⟨⟨near, inlet⟩, hgets, rfl⟩ := Option.map_eq_some_iff.mp hs
    have hkeeps : ∀ m ∈ toNear, w.toNear.Keeps m := fun m hm =>
      hkept.toNear m (hjoined.toNear ▸ List.mem_append_right _ hm)
    rcases takes_of_gets hgets hnear hkeeps with ⟨rfl, hqueue⟩ | ⟨queue, htakes, hqueue⟩
    · exact .inl ⟨rfl, rfl, hfar, hqueue⟩
    · exact .inr ⟨.nearReceives, _, Option.map_eq_some_iff.mpr ⟨_, htakes, rfl⟩, rfl, rfl, hfar,
        hqueue⟩
  | farPolls =>
    obtain ⟨⟨far, inlet⟩, hgets, rfl⟩ := Option.map_eq_some_iff.mp hs
    have hkeeps : ∀ m ∈ toFar, w.toFar.Keeps m := fun m hm =>
      hkept.toFar m (hjoined.toFar ▸ List.mem_append_right _ hm)
    rcases takes_of_gets hgets hfar hkeeps with ⟨rfl, hqueue⟩ | ⟨queue, htakes, hqueue⟩
    · exact .inl ⟨rfl, rfl, hqueue, hnear⟩
    · exact .inr ⟨.farReceives, _, Option.map_eq_some_iff.mpr ⟨_, htakes, rfl⟩, rfl, rfl, hqueue,
        hnear⟩

/-- A step over queues is a step over byte streams, once all bytes have arrived. -/
theorem Carries.step_back {first token first' token' : UInt32} {b : Conversation.Action l E}
    (h : Carries w s t) (hjoined : t.Joined first token first' token')
    (hkept : Kept w t'.near t'.far) (hs : t.step b = some t') :
    ∃ as s', Transition.Run (Piped.step w) s as s' ∧ Carries w s' t' := by
  obtain ⟨near, far, toFar, toNear⟩ := s
  obtain ⟨rfl, rfl, hfar, hnear⟩ := h
  cases b with
  | near a =>
    obtain ⟨⟨near, queue⟩, hmoves, rfl⟩ := Option.map_eq_some_iff.mp hs
    obtain ⟨out, hputs, hqueue⟩ := puts_of_moves hmoves hfar hkept.toFar
    refine ⟨[.near a], _, .single (Option.map_eq_some_iff.mpr ⟨_, hputs, rfl⟩), rfl, rfl, hqueue,
      hnear⟩
  | far a =>
    obtain ⟨⟨far, queue⟩, hmoves, rfl⟩ := Option.map_eq_some_iff.mp hs
    obtain ⟨out, hputs, hqueue⟩ := puts_of_moves hmoves hnear hkept.toNear
    refine ⟨[.far a], _, .single (Option.map_eq_some_iff.mpr ⟨_, hputs, rfl⟩), rfl, rfl, hfar,
      hqueue⟩
  | nearReceives =>
    obtain ⟨⟨near, queue⟩, htakes, rfl⟩ := Option.map_eq_some_iff.mp hs
    obtain ⟨inlet, hgets, hqueue⟩ := gets_of_takes htakes hnear fun m hm =>
      hkept.toNear m (hjoined.toNear ▸ List.mem_append_right _ hm)
    exact ⟨[.nearReads toNear.wire.length, .nearPolls], _,
      (Transition.Run.single rfl).snoc (Option.map_eq_some_iff.mpr ⟨_, hgets, rfl⟩), rfl, rfl, hfar,
      hqueue⟩
  | farReceives =>
    obtain ⟨⟨far, queue⟩, htakes, rfl⟩ := Option.map_eq_some_iff.mp hs
    obtain ⟨inlet, hgets, hqueue⟩ := gets_of_takes htakes hfar fun m hm =>
      hkept.toFar m (hjoined.toFar ▸ List.mem_append_right _ hm)
    exact ⟨[.farReads toFar.wire.length, .farPolls], _,
      (Transition.Run.single rfl).snoc (Option.map_eq_some_iff.mpr ⟨_, hgets, rfl⟩), rfl, rfl,
      hqueue, hnear⟩

/-! ## Runs -/

section Runs

variable {first token first' token' : UInt32}

theorem carries_start : Carries w (start first token first' token' : Piped l E)
    (.start first token first' token') :=
  ⟨rfl, rfl, Pipe.holds_new, Pipe.holds_new⟩

theorem conversation_of_piped {as : List (Action l E)}
    (hrun : Transition.Run (step w) (start first token first' token') as s)
    (hkept : Kept w s.near s.far) :
    ∃ bs t, Transition.Run Conversation.step (.start first token first' token') bs t ∧
      Carries w s t := by
  refine hrun.invariant (P := fun _ s => Kept w s.near s.far → ∃ bs t,
    Transition.Run Conversation.step (.start first token first' token') bs t ∧ Carries w s t)
    (fun _ => ⟨[], _, .nil, carries_start⟩) ?_ hkept
  intro as s s' a _ ih hs hkept
  obtain ⟨bs, t, ht, h⟩ := ih (hkept.of_step hs)
  rcases h.step (Conversation.joined_of_run ht) hkept hs with h' | ⟨b, t', hstep, h'⟩
  · exact ⟨bs, t, ht, h'⟩
  · exact ⟨_, t', ht.snoc hstep, h'⟩

theorem piped_of_conversation {bs : List (Conversation.Action l E)}
    (hrun : Transition.Run Conversation.step (.start first token first' token') bs t)
    (hkept : Kept w t.near t.far) :
    ∃ as s, Transition.Run (step w) (start first token first' token') as s ∧ Carries w s t := by
  refine hrun.invariant (P := fun bs t => Kept w t.near t.far → ∃ as s,
    Transition.Run (step w) (start first token first' token') as s ∧ Carries w s t)
    (fun _ => ⟨[], _, .nil, carries_start⟩) ?_ hkept
  intro bs t t' b ht ih hs hkept
  obtain ⟨as, s, hs', h⟩ := ih (hkept.of_conversation_step hs)
  obtain ⟨more, s', hmore, h'⟩ := h.step_back (Conversation.joined_of_run ht) hkept hs
  exact ⟨_, s', hs'.append hmore, h'⟩

end Runs

end Piped

/-! ## A client and a server -/

/-- `serde_json` between values and text. -/
structure JsonText (F : Type) where
  toVec : Value → List UInt8
  fromSlice : List UInt8 → Except F Value
  /-- The value is none of the type that is read. -/
  mismatch : F

namespace JsonText

variable {M F : Type}

def wiring (json : JsonText F) (c : Serde.Codec M) : Wiring M F where
  toWriter m := (json.toVec (c.serialize m), .ok ())
  fromSlice bytes :=
    (json.fromSlice bytes).bind fun v => (c.deserialize v).elim (.error json.mismatch) .ok

/-- The text of a value is one line, from which it is read. -/
structure Keeps (json : JsonText F) (v : Value) : Prop where
  noNewline : newline ∉ json.toVec v
  noCarriageReturn : (json.toVec v).getLast? ≠ some carriageReturn
  inverse : json.fromSlice (json.toVec v) = .ok v
  fits : (json.toVec v).length < usizeMax

theorem Keeps.wiring {json : JsonText F} {c : Serde.Codec M} {m : M}
    (h : json.Keeps (c.serialize m)) (hm : c.ReadsBackAt m) : (json.wiring c).Keeps m := by
  refine ⟨⟨rfl, h.noNewline, h.noCarriageReturn, ?_⟩, h.fits⟩
  show (json.fromSlice (json.toVec (c.serialize m))).bind _ = _
  have hread : c.deserialize (c.serialize m) = some m := hm
  rw [h.inverse, Except.bind, hread]
  rfl

/-- The messages of a client and a server as JSON. -/
def wirings (json : JsonText F) (A : AnnotationLeaves) : Wirings (clientLink A.leaves) F where
  toFar := json.wiring (ClientJsonRpcMessage.codec A.leaves)
  toNear := json.wiring (ServerJsonRpcMessage.codec A.leaves)

/-- Each message that a transport has taken can be written, and its text is a line. -/
structure Carriable {E : Type} (json : JsonText F) (A : AnnotationLeaves)
    (client : Serve (roleClient A.leaves) E) (server : Serve (roleServer A.leaves) E) : Prop where
  client : ∀ m ∈ client.accepted,
    m.ComesBack ClientRequest.Writable ClientResult.Writable ClientNotification.ComesBack ∧
      json.Keeps ((ClientJsonRpcMessage.codec A.leaves).serialize m)
  server : ∀ m ∈ server.accepted,
    m.ComesBack ServerRequest.Writable ServerResult.Writable ServerNotification.ComesBack ∧
      json.Keeps ((ServerJsonRpcMessage.codec A.leaves).serialize m)

theorem Carriable.kept {E : Type} {json : JsonText F} {A : AnnotationLeaves}
    {client : Serve (roleClient A.leaves) E} {server : Serve (roleServer A.leaves) E}
    (h : json.Carriable A client server) : Piped.Kept (json.wirings A) client server where
  toFar m hm :=
    (h.client m hm).2.wiring ((ClientJsonRpcMessage.comesBack_iff m).mpr (h.client m hm).1)
  toNear m hm :=
    (h.server m hm).2.wiring ((ServerJsonRpcMessage.comesBack_iff m).mpr (h.server m hm).1)

end JsonText

/-- A client and a server over byte streams, with the messages of MCP as lines of JSON, reach the
states that they reach over queues of messages, with the same messages in flight: as long as the
messages that the transports take are such as come back from JSON, and the bytes arrive in chunks
of any size. -/
theorem piped_conversation {E F : Type} (json : JsonText F) (A : AnnotationLeaves)
    (first token first' token' : UInt32) :
    (∀ as (s : Piped (clientLink A.leaves) E),
      Transition.Run (Piped.step (json.wirings A)) (.start first token first' token') as s →
      json.Carriable A s.near s.far →
      ∃ bs t, Transition.Run Conversation.step (.start first token first' token') bs t ∧
        Piped.Carries (json.wirings A) s t) ∧
    (∀ bs (t : Conversation (clientLink A.leaves) E),
      Transition.Run Conversation.step (.start first token first' token') bs t →
      json.Carriable A t.near t.far →
      ∃ as s, Transition.Run (Piped.step (json.wirings A)) (.start first token first' token') as s ∧
        Piped.Carries (json.wirings A) s t) :=
  ⟨fun _ _ hrun h => Piped.conversation_of_piped hrun h.kept,
    fun _ _ hrun h => Piped.piped_of_conversation hrun h.kept⟩

/-- The message that ends the handshake. -/
def initializedMessage : ClientJsonRpcMessage plainAnnotationLeaves.leaves.payloads :=
  .notification ⟨.initializedNotification ⟨⟨none⟩⟩⟩

/-- `{"jsonrpc":"2.0","method":"notifications/initialized"}`. -/
def initializedText : List UInt8 :=
  [123, 34, 106, 115, 111, 110, 114, 112, 99, 34, 58, 34, 50, 46, 48, 34, 44, 34, 109, 101, 116,
    104, 111, 100, 34, 58, 34, 110, 111, 116, 105, 102, 105, 99, 97, 116, 105, 111, 110, 115, 47,
    105, 110, 105, 116, 105, 97, 108, 105, 122, 101, 100, 34, 125]

/-- `serde_json` on this message and its text. -/
def initializedJson : JsonText Unit where
  toVec _ := initializedText
  fromSlice bytes :=
    if bytes = initializedText then
      .ok ((ClientJsonRpcMessage.codec plainAnnotationLeaves.leaves).serialize initializedMessage)
    else .error ()
  mismatch := ()

/-- The message is sent, and arrives. -/
def initializedRun : List (Conversation.Action (clientLink plainAnnotationLeaves.leaves) Unit) :=
  [.near (.notificationCalled (.initializedNotification ⟨⟨none⟩⟩)), .near .proxied,
    .near (.sendAccepted 0), .farReceives]

theorem piped_conversation_initializedRun :
    ∃ as, ∃ s : Piped (clientLink plainAnnotationLeaves.leaves) Unit,
      Transition.Run (Piped.step (initializedJson.wirings plainAnnotationLeaves))
        (.start 0 0 0 0) as s ∧
      s.far.spawnedNotifications = [.initializedNotification ⟨⟨none⟩⟩] := by
  have hrun : ∃ t : Conversation (clientLink plainAnnotationLeaves.leaves) Unit,
      Transition.Run Conversation.step (.start 0 0 0 0) initializedRun t ∧
      t.near.accepted = [initializedMessage] ∧ t.far.accepted = [] ∧
      t.far.spawnedNotifications = [.initializedNotification ⟨⟨none⟩⟩] :=
    ⟨_, Transition.run_of_exec rfl, rfl, rfl, rfl⟩
  obtain ⟨t, hrun, hclient, hserver, hhandled⟩ := hrun
  have hcarriable : initializedJson.Carriable plainAnnotationLeaves t.near t.far := by
    constructor
    · intro m hm
      rw [hclient, List.mem_singleton] at hm
      subst hm
      refine ⟨rfl, by decide, by decide, ?_, by decide⟩
      show (if initializedText = initializedText then _ else Except.error ()) = _
      exact if_pos rfl
    · intro m hm
      rw [hserver] at hm
      cases hm
  obtain ⟨as, s, hpiped, hcarries⟩ :=
    (piped_conversation initializedJson plainAnnotationLeaves 0 0 0 0).2 _ t hrun hcarriable
  exact ⟨as, s, hpiped, by rw [← hcarries.far, hhandled]⟩

end Rmcp.Service
