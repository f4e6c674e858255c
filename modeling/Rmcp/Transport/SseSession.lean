import Rmcp.Service.Agreement

/-!
# The end of an event stream

One session of the `SseServer`, from the answer of `sse_handler` on: its entry in the tx store,
the two channels, the service that has the transport, and the task that waits until the answer
is gone. The service is `serve_server` with its loop, or the loop alone.

The transport ends with `close`, which is a parameter of the steps: the server has
`SinkStreamTransport::close`, which does nothing, and not `poll_close` of the sink, which the
former does not reach. The ids of sessions are drawn, so no other session touches the entry.

Results:
1. `Watched.step`: the task holds a sender until the client has hung up, whatever `close` does.
2. `hasSender_iff`: so the stream does not end before, also with a `close` that reaches the
   sink.
3. `session_ends_iff`: a session ends with its service exactly when the client has hung up.
-/

namespace Rmcp.SseSession

open Service (ClientMessage ServerMessage ServerPhase Serve)

variable (L : Leaves) (E : Type)

/-! ## The states -/

/-- Who has the `SseServerTransport`. -/
inductive Stage
  /-- The channel of the transports. -/
  | queued
  | serving
  /-- The loop, after `transport.close()`. -/
  | closed
  /-- Nobody, but the sends in flight. -/
  | dropped
deriving DecidableEq

/-- The task that `sse_handler` has spawned. -/
inductive Watcher
  /-- It awaits `closed()` of its sender. -/
  | waiting
  | removing
  | done
deriving DecidableEq

/-- The body of the answer, which has the receiver of `to_client`. -/
inductive Body
  | streaming
  | ended
  /-- The client has hung up, or a message does not encode. -/
  | dropped
deriving DecidableEq

structure State where
  /-- The tx store has the sender of `from_client`. -/
  stored : Bool
  /-- The POSTs that wait for room; each has a clone of the sender. -/
  posts : List (ClientMessage L)
  fromClient : List (ClientMessage L)
  toClient : List (ServerMessage L)
  stage : Stage
  phase : ServerPhase L E
  /-- The `PollSender` of the sink is closed. -/
  sinkClosed : Bool
  /-- The tasks that `poll_close` has spawned. -/
  removals : Nat
  watcher : Watcher
  body : Body

inductive Action
  | posts (message : ClientMessage L)
  | posted (i : Nat)
  | served
  | servedDirectly
  | receives
  | handled (result : Except ErrorData (ServerResult L))
  | handsOver
  | sent (error : Option E)
  | notificationHandled
  | loop (a : Service.Action (Service.roleServer L) E)
  | closes
  | dropsTransport
  | reads
  | hangsUp
  | watcherWakes
  | watcherRemoves
  | removes

variable {L E}

/-- The capacity of the two channels. -/
def capacity : Nat := 64

namespace State

def start : State L E where
  stored := true
  posts := []
  fromClient := []
  toClient := []
  stage := .queued
  phase := .awaitRequest
  sinkClosed := false
  removals := 0
  watcher := .waiting
  body := .streaming

/-- The `SseServerTransport` is there: somebody has it, or the spawned send of a response. -/
def transportHeld (s : State L E) : Bool :=
  match s.stage, s.phase with
  | .dropped, .running _ loop => !loop.responseSends.isEmpty
  | .dropped, _ => false
  | _, _ => true

/-- A sender of `to_client` is alive. -/
def hasSender (s : State L E) : Bool :=
  s.transportHeld && !s.sinkClosed || s.watcher ≠ .done

/-! ## The ways to close a transport -/

/-- `close` of the `SinkStreamTransport`. -/
def sinkStreamClose (s : State L E) : State L E := s

/-- `poll_close` of the sink. -/
def pollClose (s : State L E) : State L E :=
  { s with sinkClosed := true, removals := s.removals + 1 }

/-! ## The steps -/

/-- The service takes a step with the transport in hand. -/
def serves (s : State L E) (move : ServerPhase L E → Option (ServerPhase L E)) :
    Option (State L E) :=
  if s.stage = .serving then (move s.phase).map fun phase => { s with phase } else none

/-- The channel takes the messages over; without a receiver they are refused. -/
def accepts (s : State L E) (messages : List (ServerMessage L)) : Option (State L E) :=
  if s.body ≠ .streaming then some s
  else if s.toClient.length + messages.length ≤ capacity then
    some { s with toClient := s.toClient ++ messages }
  else none

end State

/-- The move belongs to a task of the set, which is aborted with the loop. -/
def ofTaskSet {R : ServiceRole} : Service.Action R E → Bool
  | .sendAccepted _ | .sendFinished .. => true
  | _ => false

def step (close : State L E → State L E) (s : State L E) : Action L E → Option (State L E)
  | .posts message => if s.stored then some { s with posts := s.posts ++ [message] } else none
  | .posted i =>
    s.posts[i]?.bind fun message =>
      if !s.transportHeld then some { s with posts := s.posts.eraseIdx i }
      else if s.fromClient.length < capacity then
        some { s with posts := s.posts.eraseIdx i, fromClient := s.fromClient ++ [message] }
      else none
  | .served => if s.stage = .queued then some { s with stage := .serving } else none
  | .servedDirectly =>
    if s.stage = .queued then
      some { s with stage := .serving, phase := .running ⟨none⟩ (Serve.start 0 0) }
    else none
  | .receives =>
    match s.fromClient with
    | message :: fromClient => ({ s with fromClient }).serves (·.takes (some message))
    | [] => if !s.stored && s.posts.isEmpty then s.serves (·.takes none) else none
  | .handled result => s.serves (·.handled result)
  | .handsOver =>
    if s.stage = .serving then
      s.phase.handsOver.bind fun (message, phase) => ({ s with phase }).accepts [message]
    else none
  | .sent error =>
    match error with
    | none => s.serves (·.sent (.ok ()))
    | some error => if s.body = .streaming then none else s.serves (·.sent (.error error))
  | .notificationHandled => s.serves (·.notificationHandled)
  | .loop a =>
    match s.phase with
    | .running peer loop =>
      if a.isOfTransport || s.stage = .dropped && ofTaskSet a then none
      else (Service.step loop a).bind fun loop' =>
        ({ s with phase := .running peer loop' }).accepts (Service.Connection.newlyAccepted loop loop')
    | _ => none
  | .closes =>
    match s.stage, s.phase with
    | .serving, .running _ loop =>
      if loop.quit.isSome then some (close { s with stage := .closed }) else none
    | _, _ => none
  | .dropsTransport =>
    match s.stage, s.phase with
    | .serving, .failed _ | .closed, _ => some { s with stage := .dropped }
    | _, _ => none
  | .reads =>
    if s.body = .streaming then
      match s.toClient with
      | _ :: toClient => some { s with toClient }
      | [] => if s.hasSender then none else some { s with body := .ended }
    else none
  | .hangsUp => if s.body = .streaming then some { s with body := .dropped } else none
  | .watcherWakes =>
    if s.watcher = .waiting ∧ s.body ≠ .streaming then some { s with watcher := .removing }
    else none
  | .watcherRemoves =>
    if s.watcher = .removing then some { s with watcher := .done, stored := false } else none
  | .removes =>
    if 0 < s.removals then some { s with removals := s.removals - 1, stored := false } else none

/-! ## What a step does to the ends of the channel -/

section Steps

variable {close : State L E → State L E} {s s' : State L E} {a : Action L E}

/-- What a step does to the entry, the task that waits, and the body. -/
inductive EndsStep (close : State L E → State L E) (s : State L E) : Action L E → State L E → Prop
  | hungUp : s.body = .streaming → EndsStep close s .hangsUp { s with body := .dropped }
  | ended : s.body = .streaming → s.hasSender = false →
      EndsStep close s .reads { s with body := .ended }
  | woken : s.watcher = .waiting → s.body ≠ .streaming →
      EndsStep close s .watcherWakes { s with watcher := .removing }
  | watcherRemoved : s.watcher = .removing →
      EndsStep close s .watcherRemoves { s with watcher := .done, stored := false }
  | removed : 0 < s.removals →
      EndsStep close s .removes { s with removals := s.removals - 1, stored := false }
  | closed : EndsStep close s .closes (close { s with stage := .closed })
  | beside {a : Action L E} {s' : State L E} : a ≠ .hangsUp → s'.body = s.body →
      s'.watcher = s.watcher → s'.stored = s.stored → s'.removals = s.removals → EndsStep close s a s'

theorem serves_eq_some {move : ServerPhase L E → Option (ServerPhase L E)}
    (h : s.serves move = some s') : ∃ phase, s' = { s with phase } := by
  obtain ⟨-, h⟩ := Option.ite_none_right_eq_some.mp h
  obtain ⟨phase, -, rfl⟩ := Option.map_eq_some_iff.mp h
  exact ⟨phase, rfl⟩

theorem accepts_eq_some {messages : List (ServerMessage L)} (h : s.accepts messages = some s') :
    ∃ toClient, s' = { s with toClient } := by
  unfold State.accepts at h
  split at h
  · cases h
    exact ⟨s.toClient, rfl⟩
  · obtain ⟨-, ⟨⟩⟩ := Option.ite_none_right_eq_some.mp h
    exact ⟨_, rfl⟩

theorem step_ends (h : step close s a = some s') : EndsStep close s a s' := by
  have hserves : ∀ {r : State L E} {move : ServerPhase L E → Option (ServerPhase L E)},
      a ≠ .hangsUp → r.body = s.body → r.watcher = s.watcher → r.stored = s.stored →
      r.removals = s.removals → r.serves move = some s' → EndsStep close s a s' := by
    intro r move ha hbody hwatcher hstored hremovals hserves
    obtain ⟨phase, rfl⟩ := serves_eq_some hserves
    exact .beside ha hbody hwatcher hstored hremovals
  cases a with
  | posts message =>
    obtain ⟨-, ⟨⟩⟩ := Option.ite_none_right_eq_some.mp h
    exact .beside nofun rfl rfl rfl rfl
  | posted i =>
    obtain ⟨message, -, h⟩ := Option.bind_eq_some_iff.mp h
    split at h
    · cases h
      exact .beside nofun rfl rfl rfl rfl
    · obtain ⟨-, ⟨⟩⟩ := Option.ite_none_right_eq_some.mp h
      exact .beside nofun rfl rfl rfl rfl
  | served | servedDirectly =>
    obtain ⟨-, ⟨⟩⟩ := Option.ite_none_right_eq_some.mp h
    exact .beside nofun rfl rfl rfl rfl
  | receives =>
    simp only [step] at h
    split at h
    next message fromClient _ => exact hserves (r := { s with fromClient }) nofun rfl rfl rfl rfl h
    next =>
      obtain ⟨-, h⟩ := Option.ite_none_right_eq_some.mp h
      exact hserves nofun rfl rfl rfl rfl h
  | handled result | notificationHandled => exact hserves nofun rfl rfl rfl rfl h
  | handsOver =>
    obtain ⟨-, h⟩ := Option.ite_none_right_eq_some.mp h
    obtain ⟨⟨message, phase⟩, -, h⟩ := Option.bind_eq_some_iff.mp h
    obtain ⟨toClient, rfl⟩ := accepts_eq_some h
    exact .beside nofun rfl rfl rfl rfl
  | sent error =>
    cases error with
    | none => exact hserves nofun rfl rfl rfl rfl h
    | some error =>
      obtain ⟨-, h⟩ := Option.ite_none_left_eq_some.mp h
      exact hserves nofun rfl rfl rfl rfl h
  | loop a =>
    simp only [step] at h
    split at h
    next peer loop _ =>
      obtain ⟨-, h⟩ := Option.ite_none_left_eq_some.mp h
      obtain ⟨loop', -, h⟩ := Option.bind_eq_some_iff.mp h
      obtain ⟨toClient, rfl⟩ := accepts_eq_some h
      exact .beside nofun rfl rfl rfl rfl
    next => cases h
  | closes =>
    simp only [step] at h
    split at h
    next =>
      obtain ⟨-, ⟨⟩⟩ := Option.ite_none_right_eq_some.mp h
      exact .closed
    next => cases h
  | dropsTransport =>
    simp only [step] at h
    split at h <;> cases h <;> exact .beside nofun rfl rfl rfl rfl
  | reads =>
    obtain ⟨hstreaming, h⟩ := Option.ite_none_right_eq_some.mp h
    split at h
    next =>
      cases h
      exact .beside nofun rfl rfl rfl rfl
    next =>
      obtain ⟨hsender, ⟨⟩⟩ := Option.ite_none_left_eq_some.mp h
      exact .ended hstreaming (by simpa using hsender)
  | hangsUp =>
    obtain ⟨hstreaming, ⟨⟩⟩ := Option.ite_none_right_eq_some.mp h
    exact .hungUp hstreaming
  | watcherWakes =>
    obtain ⟨⟨hwaiting, hbody⟩, ⟨⟩⟩ := Option.ite_none_right_eq_some.mp h
    exact .woken hwaiting hbody
  | watcherRemoves =>
    obtain ⟨hremoving, ⟨⟩⟩ := Option.ite_none_right_eq_some.mp h
    exact .watcherRemoved hremoving
  | removes =>
    obtain ⟨hpos, ⟨⟩⟩ := Option.ite_none_right_eq_some.mp h
    exact .removed hpos

end Steps

/-! ## What a session keeps -/

/-- The stream goes on and is watched, or the client has hung up. -/
inductive Watched (as : List (Action L E)) (s : State L E) : Prop
  | streaming : s.body = .streaming → .hangsUp ∉ as → s.watcher = .waiting → Watched as s
  | hungUp : s.body = .dropped → .hangsUp ∈ as → Watched as s

/-- Only the task that waits removes the entry. -/
structure Entered (s : State L E) : Prop where
  stored_iff : s.stored = true ↔ s.watcher ≠ .done
  removals : s.removals = 0

section Keeps

variable {close : State L E → State L E} {s s' : State L E} {a : Action L E}
  {as : List (Action L E)}

theorem Watched.step (hclose : close = State.sinkStreamClose ∨ close = State.pollClose)
    (h : Watched as s) (hs : SseSession.step close s a = some s') : Watched (as ++ [a]) s' := by
  have hkept : ∀ r : State L E, (close r).body = r.body ∧ (close r).watcher = r.watcher := by
    intro r
    rcases hclose with rfl | rfl <;> exact ⟨rfl, rfl⟩
  have hsame : ∀ {s' : State L E}, a ≠ .hangsUp → s'.body = s.body → s'.watcher = s.watcher →
      Watched (as ++ [a]) s' := by
    intro s' ha hbody hwatcher
    cases h with
    | streaming hstreaming hnot hwaiting =>
      refine .streaming (hbody.trans hstreaming) ?_ (hwatcher.trans hwaiting)
      simpa using ⟨hnot, ha.symm⟩
    | hungUp hdropped hmem =>
      exact .hungUp (hbody.trans hdropped) (List.mem_append_left _ hmem)
  cases step_ends hs with
  | hungUp => exact .hungUp rfl (by simp)
  | ended hstreaming hsender =>
    cases h with
    | streaming _ _ hwaiting => simp [State.hasSender, hwaiting] at hsender
    | hungUp hdropped => simp [hdropped] at hstreaming
  | woken _ hbody =>
    cases h with
    | streaming hstreaming => exact absurd hstreaming hbody
    | hungUp hdropped hmem => exact .hungUp hdropped (List.mem_append_left _ hmem)
  | watcherRemoved hremoving =>
    cases h with
    | streaming _ _ hwaiting => simp [hwaiting] at hremoving
    | hungUp hdropped hmem => exact .hungUp hdropped (List.mem_append_left _ hmem)
  | removed => exact hsame nofun rfl rfl
  | closed => exact hsame nofun (hkept _).1 (hkept _).2
  | beside ha hbody hwatcher => exact hsame ha hbody hwatcher

theorem Entered.step (h : Entered s) (hs : SseSession.step State.sinkStreamClose s a = some s') :
    Entered s' := by
  cases step_ends hs with
  | hungUp | ended | closed => exact ⟨h.stored_iff, h.removals⟩
  | woken hwaiting =>
    have hstored : s.stored = true := h.stored_iff.mpr (by simp [hwaiting])
    exact ⟨iff_of_true hstored nofun, h.removals⟩
  | watcherRemoved => exact ⟨iff_of_false nofun (fun hne => hne rfl), h.removals⟩
  | removed hpos => simp [h.removals] at hpos
  | beside _ _ hwatcher hstored hremovals =>
    exact ⟨by rw [hstored, hwatcher]; exact h.stored_iff, hremovals.trans h.removals⟩

end Keeps

/-! ## Runs -/

/-- The service has ended, and the transport is gone with all that had it. -/
structure Over (s : State L E) : Prop where
  terminated : s.phase.hasClosed = true
  stage : s.stage = .dropped
  transport : s.transportHeld = false

/-- The spawned tasks have gone as far as they go. -/
structure Settled (close : State L E → State L E) (s : State L E) : Prop where
  wakes : step close s .watcherWakes = none
  watcherRemoves : step close s .watcherRemoves = none
  removes : step close s .removes = none

/-- Nobody can post to the session, and its stream ends. -/
structure Ended (s : State L E) : Prop where
  stored : s.stored = false
  hasSender : s.hasSender = false

section Runs

variable {close : State L E → State L E} {as : List (Action L E)} {s : State L E}

/-- However the transport is closed, the stream goes on until the client hangs up. -/
theorem hasSender_iff (hclose : close = State.sinkStreamClose ∨ close = State.pollClose)
    (hrun : Transition.Run (step close) .start as s) (hover : Over s) (hsettled : Settled close s) :
    s.hasSender = false ↔ .hangsUp ∈ as := by
  have hwatched : Watched as s := by
    refine hrun.invariant (.streaming rfl (List.not_mem_nil) rfl) fun _ h hs => h.step hclose hs
  cases hwatched with
  | streaming _ hnot hwaiting =>
    exact iff_of_false (by simp [State.hasSender, hwaiting]) hnot
  | hungUp hdropped hmem =>
    refine iff_of_true ?_ hmem
    have hwakes := hsettled.wakes
    have hremoves := hsettled.watcherRemoves
    cases hwatcher : s.watcher with
    | waiting => simp [step, hwatcher, hdropped] at hwakes
    | removing => simp [step, hwatcher] at hremoves
    | done => simp [State.hasSender, hwatcher, hover.transport]

/-- When the service of a session has ended and every task has run, the session is removed and
its stream ends if and only if the client has hung up. -/
theorem session_ends_iff (hrun : Transition.Run (step State.sinkStreamClose) .start as s)
    (hover : Over s) (hsettled : Settled State.sinkStreamClose s) :
    Ended s ↔ .hangsUp ∈ as := by
  have hsender := hasSender_iff (.inl rfl) hrun hover hsettled
  have hentered : Entered s := hrun.invariant (P := fun _ s => Entered s)
    ⟨iff_of_true rfl nofun, rfl⟩ fun _ h hs => h.step hs
  refine ⟨fun h => hsender.mp h.hasSender, fun hmem => ⟨?_, hsender.mpr hmem⟩⟩
  have hdone : s.watcher = .done := by
    have hnone := hsender.mpr hmem
    simp only [State.hasSender, hover.transport] at hnone
    simpa using hnone
  simpa [hdone] using hentered.stored_iff

end Runs

/-- The result of the initialize request. -/
abbrev plainResult : ServerResult plainLeaves :=
  .initializeResult ⟨⟨"2024-11-05"⟩, .object [], ⟨"server", "1.0"⟩, none⟩

/-- A handshake, and then the service is cancelled. -/
def cancelledRun : List (Action plainLeaves Unit) :=
  [.served, .posts (Service.initializeRequest Service.plainParties.getInfo (.number 0)), .posted 0,
    .receives, .handled (.ok plainResult), .handsOver, .sent none, .reads,
    .posts Service.initializedNotification, .posted 0, .receives, .notificationHandled,
    .loop .loopCancelled, .loop .cancelled, .closes, .dropsTransport]

/-- The client hangs up after that. -/
theorem session_ends_iff_hungUpRun :
    ∃ s, Transition.Run (step State.sinkStreamClose) .start
        (cancelledRun ++ [.hangsUp, .watcherWakes, .watcherRemoves]) s ∧ Over s ∧ Ended s := by
  have hrun : ∃ s, Transition.exec (step State.sinkStreamClose) .start
      (cancelledRun ++ [.hangsUp, .watcherWakes, .watcherRemoves]) = some s ∧ Over s ∧
      Settled State.sinkStreamClose s :=
    ⟨_, rfl, ⟨rfl, rfl, rfl⟩, ⟨rfl, rfl, rfl⟩⟩
  obtain ⟨s, hexec, hover, hsettled⟩ := hrun
  have hrun := Transition.run_of_exec hexec
  exact ⟨s, hrun, hover, (session_ends_iff hrun hover hsettled).mpr (by simp)⟩

/-- The client stays, and so do the entry, a sender and the stream. -/
theorem connected_session_stays :
    ∃ s, Transition.Run (step State.sinkStreamClose) .start cancelledRun s ∧ Over s ∧
      Settled State.sinkStreamClose s ∧ s.stored = true ∧ s.hasSender = true ∧
      s.body = .streaming ∧ step State.sinkStreamClose s .reads = none ∧ ¬ Ended s := by
  refine ⟨_, Transition.run_of_exec rfl, ⟨rfl, rfl, rfl⟩, ⟨rfl, rfl, rfl⟩, rfl, rfl, rfl, rfl,
    fun h => ?_⟩
  cases h.stored

end Rmcp.SseSession
