import Rmcp.Session.Gaps

/-!
# Stalled consumers

The session with the queues of its worker: the events of the HTTP handlers, the requests of the
service, and the cancellation token. The worker takes one thing out of its queues and goes
through a turn with it. A turn that sends on a full channel waits until the receiver takes
something or is dropped, and meanwhile nobody looks at the queues or the token. Before the loop
the worker waits for the initialize request, and then for the service to answer it: it does not
look at the token there, nor, in the second wait, at the events.

Results:
1. `Turn.run_waits_iff`: a turn waits exactly when the channel that it sends on is full and
   its receiver held; a resume never does.
2. `Task.Reached.step`: without its queues a run is a run of the session.
3. `clear_iff_hears`: the steps after which the handshake has missed no call.
4. `responsive_iff`: a session stays responsive exactly as long as every turn has room and the
   handshake misses no call.
-/

namespace Rmcp.Session

variable {P : Payloads}

/-! ## Turns -/

/-- What the loop has taken out of a queue. -/
inductive Turn (P : Payloads)
  | httpService (event : SessionEvent P)
  | handler (message : ServerJsonRpcMessage P)

namespace Turn

def action : Turn P → Action P
  | .httpService event => .httpService event
  | .handler message => .handler message

/-- What the loop does with it, from the variables `s`. -/
def run (s : Vars P) : Turn P → Exec (Except WorkerQuitReason (Vars P))
  | .httpService event => (s.fromHttpService event).map (·.map (·.2))
  | .handler message => (s.fromHandler message).map (.ok ·.2)

/-- The channel that the turn sends on has room, or its receiver is gone. -/
def Flows (s : Vars P) : Turn P → Prop
  | .httpService (.clientMessage ..) => s.toHandler.HasRoom
  | .httpService _ => True
  | .handler message =>
    ∀ id c, (s.worker.catchResponse message).outlet message = some (id, c) →
      (s.channels.chan c.tx).HasRoom

end Turn

theorem CachedTx.send_eq_error {c : CachedTx P} {channels : Channels P}
    {message : ServerJsonRpcMessage P} {e : Stop} :
    c.send channels message = .error e ↔ e = .waits ∧ ¬ (channels.chan c.tx).HasRoom := by
  rw [← Mpsc.send_eq_error (a := c.stamp message), send, Exec.bind_eq_error]
  refine or_iff_left ?_
  rintro ⟨r, -, ⟨⟩⟩

namespace SessionWorker

theorem resolveOutboundChannel_not_waits (w : SessionWorker P) (message : ServerJsonRpcMessage P) :
    w.resolveOutboundChannel message ≠ .error .waits := by
  unfold resolveOutboundChannel
  split
  case h_2 => split <;> nofun
  all_goals nofun

/-- A message of the handler waits on its outlet, if it has one. -/
theorem handleServerMessage_waits_iff {w : SessionWorker P} {channels : Channels P}
    {message : ServerJsonRpcMessage P} :
    w.handleServerMessage channels message = .error .waits ↔
      ∃ id c, w.outlet message = some (id, c) ∧ ¬ (channels.chan c.tx).HasRoom := by
  have hsend : ∀ (c : CachedTx P) (f : CachedTx P × Channels P →
      Exec (Except SessionError Unit × SessionWorker P × Channels P)), (∀ r, f r ≠ .error .waits) →
      ((c.send channels message >>= f) = .error .waits ↔ ¬ (channels.chan c.tx).HasRoom) := by
    intro c f hf
    rw [Exec.bind_eq_error, CachedTx.send_eq_error, or_iff_left (fun ⟨r, _, h⟩ => hf r h)]
    exact and_iff_right rfl
  unfold handleServerMessage outlet
  cases hout : w.resolveOutboundChannel message with
  | error e =>
    have hne : e ≠ .waits := by
      rintro rfl
      exact w.resolveOutboundChannel_not_waits message hout
    simpa [Exec.bind_eq_error] using hne
  | ok out =>
    cases out with
    | common =>
      simp only [Exec.bind_ok]
      rw [hsend _ _ (by rintro ⟨c, channels⟩ ⟨⟩)]
      simp
    | requestWise id close =>
      simp only [Exec.bind_ok]
      cases hget : w.txRouter.get id with
      | none => simp [pure, Except.pure]
      | some channel =>
        simp only []
        rw [hsend _ _ (by rintro ⟨c, channels⟩ ⟨⟩)]
        simp

end SessionWorker

theorem Turn.run_waits_iff {config : SessionConfig} {s : Vars P}
    (hsenders : SendersOk config s.worker s.channels) (turn : Turn P) :
    turn.run s = .error .waits ↔ ¬ turn.Flows s := by
  cases turn with
  | handler message =>
    simp only [run, Flows, Exec.map_eq_error, Vars.fromHandler, Exec.bind_eq_error]
    rw [or_iff_left (by rintro ⟨r, -, ⟨⟩⟩), SessionWorker.handleServerMessage_waits_iff]
    simp
  | httpService event =>
    simp only [run, Exec.map_eq_error]
    cases event with
    | clientMessage message httpRequestId =>
      simp only [Flows, Vars.fromHttpService, Exec.bind_eq_error, Chan.send_eq_error, true_and]
      refine or_iff_left ?_
      rintro ⟨⟨ok, toHandler⟩, -, h⟩
      cases ok <;> cases h
    | resume lastEventId =>
      obtain ⟨reply, s', hresume⟩ := hsenders.resume_returns lastEventId
      simp [hresume, Flows]
    | _ => simp [Vars.fromHttpService, Flows]

/-! ## Queues -/

/-- Where the task of the worker is. -/
inductive Task (P : Payloads)
  | session (state : State P)
  /-- The worker waits in a send. -/
  | waits (turn : Turn P) (s : Vars P)

structure Queues (P : Payloads) where
  task : Task P
  events : List (SessionEvent P)
  requests : List (ServerJsonRpcMessage P)
  cancelled : Bool
  /-- A handle of the session is left. -/
  handles : Bool
  /-- A sender of requests is left. -/
  senders : Bool

inductive QueueAction (P : Payloads)
  | pushes (event : SessionEvent P)
  | sends (message : ServerJsonRpcMessage P)
  | cancels
  | dropsHandles
  | dropsSenders
  | environment (move : Environment)
  -- the worker
  | takesEvent
  | takesRequest
  | takesInitializeResponse (httpServiceWaits handlerWaits : Bool)
  | seesHandlesDropped
  | seesSendersDropped
  | seesCancelled
  /-- The send that the worker waits in goes through. -/
  | continues

namespace Queues

def start (P : Payloads) (config : SessionConfig) : Queues P where
  task := .session (.awaitInitialize (Session.start P config))
  events := []
  requests := []
  cancelled := false
  handles := true
  senders := true

/-- The worker takes a step of the session. -/
def acts (q : Queues P) (a : Action P) : Option (Queues P) :=
  match q.task with
  | .session st => (Session.step st a).map fun st => { q with task := .session st }
  | .waits .. => none

/-- The worker begins a turn. -/
def begins (q : Queues P) (turn : Turn P) : Option (Queues P) :=
  match q.task with
  | .session (.running s) =>
    match State.after (turn.run s) with
    | some st => some { q with task := .session st }
    | none => some { q with task := .waits turn s }
  | _ => q.acts turn.action

def step (config : SessionConfig) (q : Queues P) : QueueAction P → Option (Queues P)
  | .pushes event =>
    if q.handles ∧ q.events.length < config.channelCapacity then
      some { q with events := q.events ++ [event] }
    else none
  | .sends message =>
    if q.senders ∧ q.requests.length < config.channelCapacity then
      some { q with requests := q.requests ++ [message] }
    else none
  | .cancels => some { q with cancelled := true }
  | .dropsHandles => some { q with handles := false }
  | .dropsSenders => some { q with senders := false }
  | .environment move =>
    match q.task with
    | .session _ => q.acts (.environment move)
    | .waits turn s => (s.environment move).map fun s => { q with task := .waits turn s }
  | .takesEvent =>
    match q.events with
    | event :: events => ({ q with events }).begins (.httpService event)
    | [] => none
  | .takesRequest =>
    match q.requests with
    | message :: requests => ({ q with requests }).begins (.handler message)
    | [] => none
  | .takesInitializeResponse httpServiceWaits handlerWaits =>
    match q.requests with
    | message :: requests =>
      ({ q with requests }).acts (.initializeResponse message httpServiceWaits handlerWaits)
    | [] => none
  | .seesHandlesDropped => if !q.handles && q.events.isEmpty then q.acts .httpServiceGone else none
  | .seesSendersDropped => if !q.senders && q.requests.isEmpty then q.acts .handlerGone else none
  | .seesCancelled => if q.cancelled then q.acts .cancelled else none
  | .continues =>
    match q.task with
    | .waits turn s => (State.after (turn.run s)).map fun st => { q with task := .session st }
    | .session _ => none

end Queues

/-! ## What is asked of a session -/

/-- The event ends the session, or gives a stream a new channel. -/
def SessionEvent.closesOrResumes : SessionEvent P → Bool
  | .close | .resume _ => true
  | _ => false

/-- The arrivals that a session has to react to. -/
def QueueAction.calls : QueueAction P → Bool
  | .pushes event => event.closesOrResumes
  | .cancels => true
  | _ => false

namespace Queues

/-- A Close or a Resume waits for the worker. -/
def Asked (q : Queues P) : Prop := ∃ event ∈ q.events, event.closesOrResumes = true

/-- The worker waits in a send, on a channel that is full. -/
def Stalled (q : Queues P) : Prop := ∃ turn s, q.task = .waits turn s ∧ turn.run s = .error .waits

def stalled (q : Queues P) : Bool :=
  match q.task with
  | .waits turn s => (State.after (turn.run s)).isNone
  | .session _ => false

/-- The loop has begun, and not ended. -/
def InLoop (q : Queues P) : Prop :=
  (∃ s, q.task = .session (.running s)) ∨ ∃ turn s, q.task = .waits turn s

/-- The worker has not returned. -/
def Alive (q : Queues P) : Prop := ∀ st, q.task = .session st → st.vars?.isSome = true

/-- While the worker is called it does not wait in a send on a full channel, and a step of it is
enabled: it sees the token or takes the next event, or ends the turn that is before that. -/
structure Responsive (config : SessionConfig) (q : Queues P) : Prop where
  notStalled : q.cancelled = true ∨ q.Asked → ¬ q.Stalled
  seesToken : q.cancelled = true → q.Alive →
    ∃ a ∈ [.seesCancelled, .continues], (q.step config a).isSome = true
  takesCall : q.Asked → q.Alive →
    ∃ a ∈ [.takesEvent, .continues], (q.step config a).isSome = true

/-- What a turn takes out of its queue has room where it goes. -/
def Flows (q : Queues P) : QueueAction P → Prop
  | .takesEvent => ∀ event, q.events.head? = some event →
    ∀ s, q.task = .session (.running s) → (Turn.httpService event).Flows s
  | .takesRequest => ∀ message, q.requests.head? = some message →
    ∀ s, q.task = .session (.running s) → (Turn.handler message).Flows s
  | _ => True

/-- The worker waits for the service to answer the initialize request. -/
def AwaitsResponse (q : Queues P) : Prop := ∃ s, q.task = .session (.awaitInitializeResponse s)

/-- The worker has not come to the loop yet. -/
def InHandshake (q : Queues P) : Prop :=
  (∃ s, q.task = .session (.awaitInitialize s)) ∨ q.AwaitsResponse

/-- The handshake is over when the token is cancelled, and the worker does not wait for the
service when a Close or Resume is queued: none comes then, and none is queued behind the
initialize request that the service is given. -/
def Hears (q : Queues P) : QueueAction P → Prop
  | .cancels => ¬ q.InHandshake
  | .pushes event => event.closesOrResumes = true → ¬ q.AwaitsResponse
  | .takesEvent => ∀ s request events, q.task = .session (.awaitInitialize s) →
    q.events = .initializeRequest request :: events → s.toHandler.closedAt = none →
    ∀ event ∈ events, event.closesOrResumes = false
  | _ => True

/-- Nothing has come that a worker in the handshake does not look at. -/
structure Clear (q : Queues P) : Prop where
  notCancelled : q.InHandshake → q.cancelled = false
  notAsked : q.AwaitsResponse → ¬ q.Asked

/-- The worker is not in the middle of a turn. -/
def Free (q : Queues P) : Prop := ∀ turn s, q.task ≠ .waits turn s

end Queues

/-! ## What a step does to the task -/

theorem State.after_eq_none {turn : Exec (Except WorkerQuitReason (Vars P))} :
    State.after turn = none ↔ turn = .error .waits := by
  unfold State.after
  split <;> simp_all

theorem Queues.stalled_iff {q : Queues P} : q.stalled = true ↔ q.Stalled := by
  cases htask : q.task with
  | session st => simp [stalled, Stalled, htask]
  | waits turn s => simp [stalled, Stalled, htask, State.after_eq_none]

/-- The session has come to where the task is. -/
def Task.Reached (config : SessionConfig) : Task P → Prop
  | .session st =>
    Transition.Reachable Session.step (.awaitInitialize (Session.start P config)) st
  | .waits _ s =>
    Transition.Reachable Session.step (.awaitInitialize (Session.start P config)) (.running s)

section Steps

variable {config : SessionConfig} {q q' : Queues P}

theorem step_turn (s : Vars P) (turn : Turn P) :
    Session.step (.running s) turn.action = State.after (turn.run s) := by
  cases turn <;> rfl

theorem free_of_session {st : State P} (h : q.task = .session st) : q.Free := by
  intro turn s hwaits
  rw [h] at hwaits
  cases hwaits

theorem reachable_step {init st st' : State P} {a : Action P}
    (h : Transition.Reachable Session.step init st) (hs : Session.step st a = some st') :
    Transition.Reachable Session.step init st' := by
  obtain ⟨as, hrun⟩ := h
  exact ⟨as ++ [a], hrun.snoc hs⟩

theorem acts_eq_some {a : Action P} (h : q.task.Reached config) (hs : q.acts a = some q') :
    q'.task.Reached config ∧ q'.Free := by
  unfold Queues.acts at hs
  split at hs
  next st htask =>
    rw [htask] at h
    obtain ⟨st', hst, rfl⟩ := Option.map_eq_some_iff.mp hs
    exact ⟨reachable_step h hst, free_of_session rfl⟩
  next => cases hs

/-- A turn is over at once exactly when it flows. -/
theorem begins_eq_some {turn : Turn P} (h : q.task.Reached config)
    (hs : q.begins turn = some q') :
    q'.task.Reached config ∧ (q'.Free ↔ ∀ s, q.task = .session (.running s) → turn.Flows s) ∧
      (¬ q'.Free → q'.Stalled) := by
  unfold Queues.begins at hs
  split at hs
  next s htask =>
    rw [htask] at h
    obtain ⟨as, hrun⟩ := h
    have hflows := Turn.run_waits_iff (Runs.senders hrun) turn
    have hsession : ∀ s', q.task = .session (.running s') → s' = s := by
      intro s' hs'
      rw [htask] at hs'
      cases hs'
      rfl
    split at hs
    next st hafter =>
      cases hs
      have hfree : Queues.Free { q with task := .session st } := free_of_session rfl
      refine ⟨reachable_step ⟨as, hrun⟩ ((step_turn s turn).trans hafter),
        iff_of_true hfree fun s' hs' => ?_, fun hnot => absurd hfree hnot⟩
      rw [hsession s' hs']
      by_contra hnot
      rw [State.after_eq_none.mpr (hflows.mpr hnot)] at hafter
      cases hafter
    next hafter =>
      cases hs
      have hwaits := State.after_eq_none.mp hafter
      refine ⟨⟨as, hrun⟩, iff_of_false (fun hfree => hfree turn s rfl) fun hall => ?_,
        fun _ => ⟨turn, s, rfl, hwaits⟩⟩
      exact hflows.mp hwaits (hall s htask)
  next hnot =>
    obtain ⟨hreached, hfree⟩ := acts_eq_some h hs
    exact ⟨hreached, iff_of_true hfree fun s hs => absurd hs (hnot s),
      fun hno => absurd hfree hno⟩

/-- One step, from between two turns: it leads between two turns exactly when it flows. -/
theorem step_free {a : QueueAction P} (h : q.task.Reached config) (hfree : q.Free)
    (hs : q.step config a = some q') :
    q'.task.Reached config ∧ (q'.Free ↔ q.Flows a) ∧ (¬ q'.Free → q'.Stalled) := by
  have hsame : q'.task = q.task →
      q'.task.Reached config ∧ (q'.Free ↔ True) ∧ (¬ q'.Free → q'.Stalled) := by
    intro htask
    have hfree' : q'.Free := by
      rw [Queues.Free, htask]
      exact hfree
    exact ⟨htask ▸ h, iff_of_true hfree' trivial, fun hnot => absurd hfree' hnot⟩
  have hacts : ∀ {r : Queues P} {b : Action P}, r.task = q.task → r.acts b = some q' →
      q'.task.Reached config ∧ (q'.Free ↔ True) ∧ (¬ q'.Free → q'.Stalled) := by
    intro r b htask hacts
    obtain ⟨hreached, hfree'⟩ := acts_eq_some (htask ▸ h) hacts
    exact ⟨hreached, iff_of_true hfree' trivial, fun hnot => absurd hfree' hnot⟩
  cases a with
  | pushes event | sends message =>
    obtain ⟨-, ⟨⟩⟩ := Option.ite_none_right_eq_some.mp hs
    exact hsame rfl
  | cancels | dropsHandles | dropsSenders =>
    cases hs
    exact hsame rfl
  | environment move =>
    simp only [Queues.step] at hs
    split at hs
    next => exact hacts rfl hs
    next turn s htask => exact absurd htask (hfree turn s)
  | takesEvent =>
    simp only [Queues.step] at hs
    split at hs
    next event events hevents =>
      simpa [Queues.Flows, hevents] using begins_eq_some (q := { q with events }) h hs
    next => cases hs
  | takesRequest =>
    simp only [Queues.step] at hs
    split at hs
    next message requests hrequests =>
      simpa [Queues.Flows, hrequests] using begins_eq_some (q := { q with requests }) h hs
    next => cases hs
  | takesInitializeResponse httpServiceWaits handlerWaits =>
    simp only [Queues.step] at hs
    split at hs
    next message requests _ => exact hacts (r := { q with requests }) rfl hs
    next => cases hs
  | seesHandlesDropped | seesSendersDropped | seesCancelled =>
    obtain ⟨-, hs⟩ := Option.ite_none_right_eq_some.mp hs
    exact hacts rfl hs
  | continues =>
    simp only [Queues.step] at hs
    split at hs
    next turn s htask => exact absurd htask (hfree turn s)
    next => cases hs

/-- The channel to the service is empty when the session waits for the initialize request. -/
theorem hasRoom_of_awaitInitialize {s : Vars P}
    (h : Transition.Reachable Session.step (.awaitInitialize (Session.start P config))
      (.awaitInitialize s)) : s.toHandler.HasRoom := by
  have hnew : s.toHandler.offered = [] ∧ s.toHandler.capacity = config.channelCapacity := by
    refine h.invariant (P := fun st => ∀ s, st = .awaitInitialize s →
      s.toHandler.offered = [] ∧ s.toHandler.capacity = config.channelCapacity) ?_ ?_ s rfl
    · rintro _ ⟨⟩
      exact ⟨rfl, rfl⟩
    rintro st st' a hbefore hs s' rfl
    obtain ⟨s, move, rfl, rfl, hmove⟩ := step_awaitInitialize hs
    have hold := hbefore s rfl
    cases move with
    | receive | dropReceiver =>
      obtain ⟨-, ⟨⟩⟩ := Option.ite_none_right_eq_some.mp hmove
      exact hold
    | handlerReceives =>
      cases hmove
      simpa using hold
    | handlerDrops =>
      cases hmove
      exact hold
  exact Chan.hasRoom_of_offered_nil hnew.1 (hnew.2 ▸ config.channelCapacity_pos)

/-- A worker that waits for the initialize request takes every event. -/
theorem isSome_step_awaitInitialize {s : Vars P} (hroom : s.toHandler.HasRoom)
    (event : SessionEvent P) :
    (Session.step (.awaitInitialize s) (.httpService event)).isSome = true := by
  cases event with
  | initializeRequest request =>
    simp only [Session.step]
    split
    · rfl
    · rfl
    · rfl
    · next hsend => exact absurd hroom (Chan.send_eq_error.mp hsend).2
  | _ => rfl

theorem alive_of_handshake (hin : q.InHandshake) : q.Alive := by
  intro st hst
  rcases hin with ⟨s, htask⟩ | ⟨s, htask⟩ <;> rw [htask] at hst <;> cases hst <;> rfl

theorem not_handshake_of_loop (hloop : q.InLoop) : ¬ q.InHandshake := by
  rcases hloop with ⟨s, htask⟩ | ⟨turn, s, htask⟩ <;>
    simp [Queues.InHandshake, Queues.AwaitsResponse, htask]

theorem responsive_of_clear (h : q.task.Reached config) (hfree : q.Free) (hclear : q.Clear) :
    q.Responsive config where
  notStalled := by
    rintro - ⟨turn, s, htask, -⟩
    exact hfree turn s htask
  seesToken := by
    intro hcancelled halive
    have hloop : ¬ q.InHandshake := fun hin => by
      rw [hclear.notCancelled hin] at hcancelled
      cases hcancelled
    refine ⟨.seesCancelled, by simp, ?_⟩
    cases htask : q.task with
    | waits turn s => exact absurd htask (hfree turn s)
    | session st =>
      cases st with
      | awaitInitialize s => exact absurd (.inl ⟨s, htask⟩) hloop
      | awaitInitializeResponse s => exact absurd (.inr ⟨s, htask⟩) hloop
      | running s => simp [Queues.step, hcancelled, Queues.acts, htask, Session.step]
      | quit | panicked => cases halive _ htask
  takesCall := by
    intro hasked halive
    have hne : q.events ≠ [] := by
      obtain ⟨asking, hmem, -⟩ := hasked
      exact List.ne_nil_of_mem hmem
    obtain ⟨event, events, hevents⟩ := List.exists_cons_of_ne_nil hne
    refine ⟨.takesEvent, by simp, ?_⟩
    cases htask : q.task with
    | waits turn s => exact absurd htask (hfree turn s)
    | session st =>
      cases st with
      | awaitInitialize s =>
        rw [htask] at h
        have hsome := isSome_step_awaitInitialize (hasRoom_of_awaitInitialize h) event
        simpa [Queues.step, hevents, Queues.begins, Queues.acts, htask, Turn.action] using hsome
      | awaitInitializeResponse s =>
        exact absurd hasked (hclear.notAsked ⟨s, htask⟩)
      | running s =>
        simp only [Queues.step, hevents, Queues.begins, htask]
        split <;> rfl
      | quit | panicked => cases halive _ htask

/-- A session is responsive now, and in the loop at its next call as well, exactly when no turn
waits and the handshake has missed nothing. -/
theorem responsive_calls_iff (h : q.task.Reached config) (hstalled : ¬ q.Free → q.Stalled) :
    (q.Responsive config ∧ (q.InLoop → ∀ a q', a.calls = true → q.step config a = some q' →
      q'.Responsive config)) ↔ q.Free ∧ q.Clear := by
  constructor
  · rintro ⟨hresponsive, hcalls⟩
    refine ⟨?_, ?_, ?_⟩
    · by_contra hnot
      obtain ⟨turn, s, htask, hwaits⟩ := hstalled hnot
      have hcancelled := hcalls (.inr ⟨turn, s, htask⟩) .cancels { q with cancelled := true } rfl rfl
      exact hcancelled.notStalled (.inl rfl) ⟨turn, s, htask, hwaits⟩
    · intro hin
      by_contra hcancelled
      rw [Bool.not_eq_false] at hcancelled
      obtain ⟨a, ha, hsome⟩ := hresponsive.seesToken hcancelled (alive_of_handshake hin)
      rcases hin with ⟨s, htask⟩ | ⟨s, htask⟩ <;>
        simp only [List.mem_cons, List.not_mem_nil, or_false] at ha <;>
        rcases ha with rfl | rfl <;>
        simp [Queues.step, Queues.acts, htask, Session.step] at hsome
    · rintro ⟨s, htask⟩ hasked
      obtain ⟨a, ha, hsome⟩ := hresponsive.takesCall hasked (alive_of_handshake (.inr ⟨s, htask⟩))
      obtain ⟨asking, hmem, -⟩ := hasked
      obtain ⟨event, events, hevents⟩ := List.exists_cons_of_ne_nil (List.ne_nil_of_mem hmem)
      simp only [List.mem_cons, List.not_mem_nil, or_false] at ha
      rcases ha with rfl | rfl
      · simp [Queues.step, hevents, Queues.begins, Queues.acts, Turn.action, htask,
          Session.step] at hsome
      · simp [Queues.step, htask] at hsome
  · rintro ⟨hfree, hclear⟩
    refine ⟨responsive_of_clear h hfree hclear, fun hloop a q' ha hs => ?_⟩
    -- in the loop a call changes neither the task nor what the handshake has missed
    have hout : ¬ q.InHandshake := not_handshake_of_loop hloop
    have hcalled : ∀ r : Queues P, r.task = q.task → r.Responsive config := by
      intro r htask
      have houtr : ¬ r.InHandshake := by rwa [Queues.InHandshake, Queues.AwaitsResponse, htask]
      exact responsive_of_clear (htask ▸ h) (fun turn s => htask ▸ hfree turn s)
        ⟨fun hin => absurd hin houtr, fun hin => absurd (.inr hin) houtr⟩
    cases a with
    | pushes event =>
      obtain ⟨-, ⟨⟩⟩ := Option.ite_none_right_eq_some.mp hs
      exact hcalled _ rfl
    | cancels =>
      cases hs
      exact hcalled _ rfl
    | _ => cases ha

/-- A step of the session leads into the handshake only from there, and to the wait for the
service only from there or with the initialize request. -/
structure HandshakeStep (q : Queues P) (a : Action P) (q' : Queues P) : Prop where
  handshake : q'.InHandshake → q.InHandshake
  awaits : q'.AwaitsResponse → q.AwaitsResponse ∨ ∃ s request,
    q.task = .session (.awaitInitialize s) ∧ a = .httpService (.initializeRequest request) ∧
      s.toHandler.closedAt = none
  events_eq : q'.events = q.events
  cancelled_eq : q'.cancelled = q.cancelled

theorem acts_handshake {a : Action P} (hs : q.acts a = some q') : HandshakeStep q a q' := by
  unfold Queues.acts at hs
  split at hs
  next st htask =>
    obtain ⟨st', hst, rfl⟩ := Option.map_eq_some_iff.mp hs
    have hawaits : Queues.AwaitsResponse { q with task := .session st' } →
        q.AwaitsResponse ∨ ∃ s request, q.task = .session (.awaitInitialize s) ∧
          a = .httpService (.initializeRequest request) ∧ s.toHandler.closedAt = none := by
      rintro ⟨s', ⟨⟩⟩
      rcases step_awaitInitializeResponse hst with
        ⟨s, move, rfl, -⟩ | ⟨s, request, rfl, ha, hopen⟩
      · exact .inl ⟨s, htask⟩
      · exact .inr ⟨s, request, htask, ha, hopen⟩
    refine ⟨?_, hawaits, rfl, rfl⟩
    rintro (⟨s', ⟨⟩⟩ | hresponse)
    · obtain ⟨s, move, rfl, -, -⟩ := step_awaitInitialize hst
      exact .inl ⟨s, htask⟩
    · rcases hawaits hresponse with hbefore | ⟨s, -, hbefore, -⟩
      · exact .inr hbefore
      · exact .inl ⟨s, hbefore⟩
  next => cases hs

theorem begins_handshake {turn : Turn P} (hs : q.begins turn = some q') :
    HandshakeStep q turn.action q' := by
  unfold Queues.begins at hs
  split at hs
  next s htask =>
    have hout : q'.InLoop ∨ (∃ st, q'.task = .session st ∧ st.vars? = none) := by
      split at hs
      next st hafter =>
        cases hs
        rcases State.after_cases hafter with ⟨s', rfl⟩ | hnone
        · exact .inl (.inl ⟨s', rfl⟩)
        · exact .inr ⟨st, rfl, hnone⟩
      next =>
        cases hs
        exact .inl (.inr ⟨turn, s, rfl⟩)
    have hnot : ¬ q'.InHandshake := by
      rcases hout with hloop | ⟨st, htask', hnone⟩
      · exact not_handshake_of_loop hloop
      · intro hin
        have halive := alive_of_handshake hin st htask'
        rw [hnone] at halive
        cases halive
    have hsame : q'.events = q.events ∧ q'.cancelled = q.cancelled := by
      split at hs <;> cases hs <;> exact ⟨rfl, rfl⟩
    exact ⟨fun hin => absurd hin hnot, fun hin => absurd (.inr hin) hnot, hsame.1, hsame.2⟩
  next => exact acts_handshake hs

/-- When the service has its end, it is given the initialize request. -/
theorem awaits_of_request {s : Vars P} {request : ClientJsonRpcMessage P}
    (htask : q.task = .session (.awaitInitialize s)) (hopen : s.toHandler.closedAt = none)
    (hs : q.begins (.httpService (.initializeRequest request)) = some q') :
    q'.AwaitsResponse := by
  simp only [Queues.begins, Queues.acts, htask, Turn.action] at hs
  obtain ⟨st, hst, rfl⟩ := Option.map_eq_some_iff.mp hs
  simp only [Session.step] at hst
  split at hst
  next toHandler hsend =>
    cases hst
    exact ⟨_, rfl⟩
  next hsend => exact absurd ((Chan.send_eq_ok hsend).2.mpr hopen) (by simp)
  next hsend => cases (Chan.send_eq_error.mp hsend).1
  next => cases hst

/-- A step of the session that is not the initialize request, with the same events. -/
theorem HandshakeStep.clear {r : Queues P} {a : Action P} (h : HandshakeStep r a q')
    (hclear : r.Clear) (ha : ∀ request, a ≠ .httpService (.initializeRequest request)) :
    q'.Clear := by
  refine ⟨fun hin => ?_, fun hin => ?_⟩
  · rw [h.cancelled_eq]
    exact hclear.notCancelled (h.handshake hin)
  · rw [Queues.Asked, h.events_eq]
    rcases h.awaits hin with hbefore | ⟨s, request, -, rfl, -⟩
    · exact hclear.notAsked hbefore
    · exact absurd rfl (ha request)

/-- After a step the handshake has missed nothing exactly when it hears. -/
theorem clear_iff_hears {a : QueueAction P} (hfree : q.Free) (hclear : q.Clear)
    (hs : q.step config a = some q') : q'.Clear ↔ q.Hears a := by
  have hacts : ∀ {r : Queues P} {b : Action P}, r.Clear →
      (∀ request, b ≠ .httpService (.initializeRequest request)) → r.acts b = some q' →
      (q'.Clear ↔ True) := fun hr hb hs => iff_of_true ((acts_handshake hs).clear hr hb) trivial
  cases a with
  | pushes event =>
    obtain ⟨-, ⟨⟩⟩ := Option.ite_none_right_eq_some.mp hs
    constructor
    · intro hafter hcloses hin
      exact hafter.notAsked hin ⟨event, by simp, hcloses⟩
    · refine fun hhears => ⟨hclear.notCancelled, fun hin => ?_⟩
      rintro ⟨asking, hmem, hcloses⟩
      rcases List.mem_append.mp hmem with hold | hnew
      · exact hclear.notAsked hin ⟨asking, hold, hcloses⟩
      · obtain rfl := List.mem_singleton.mp hnew
        exact hhears hcloses hin
  | cancels =>
    cases hs
    constructor
    · intro hafter hin
      cases hafter.notCancelled hin
    · exact fun hout => ⟨fun hin => absurd hin hout, hclear.notAsked⟩
  | sends message =>
    obtain ⟨-, ⟨⟩⟩ := Option.ite_none_right_eq_some.mp hs
    exact iff_of_true ⟨hclear.notCancelled, hclear.notAsked⟩ trivial
  | dropsHandles | dropsSenders =>
    cases hs
    exact iff_of_true ⟨hclear.notCancelled, hclear.notAsked⟩ trivial
  | environment move =>
    simp only [Queues.step] at hs
    split at hs
    next => exact hacts hclear (by simp) hs
    next turn s htask => exact absurd htask (hfree turn s)
  | takesEvent =>
    simp only [Queues.step] at hs
    split at hs
    next event events hevents =>
      have hstep := begins_handshake hs
      constructor
      · intro hafter s request events' htask hevents' hopen asking hmem
        rw [hevents] at hevents'
        cases hevents'
        by_contra hcloses
        rw [Bool.not_eq_false] at hcloses
        refine hafter.notAsked (awaits_of_request (q := { q with events }) htask hopen hs) ?_
        exact ⟨asking, hstep.events_eq ▸ hmem, hcloses⟩
      · intro hhears
        refine ⟨fun hin => ?_, fun hin => ?_⟩
        · rw [hstep.cancelled_eq]
          exact hclear.notCancelled (hstep.handshake hin)
        · rw [Queues.Asked, hstep.events_eq]
          rintro ⟨asking, hmem, hcloses⟩
          rcases hstep.awaits hin with hbefore | ⟨s, request, htask, hrequest, hopen⟩
          · refine hclear.notAsked hbefore ⟨asking, ?_, hcloses⟩
            rw [hevents]
            exact List.mem_cons_of_mem event hmem
          · cases hrequest
            rw [hhears s request events htask hevents hopen asking hmem] at hcloses
            cases hcloses
    next => cases hs
  | takesRequest =>
    simp only [Queues.step] at hs
    split at hs
    next message requests hrequests =>
      have hr : Queues.Clear { q with requests } := ⟨hclear.notCancelled, hclear.notAsked⟩
      exact iff_of_true ((begins_handshake hs).clear hr (by simp [Turn.action])) trivial
    next => cases hs
  | takesInitializeResponse httpServiceWaits handlerWaits =>
    simp only [Queues.step] at hs
    split at hs
    next message requests _ =>
      have hr : Queues.Clear { q with requests } := ⟨hclear.notCancelled, hclear.notAsked⟩
      exact hacts hr (by simp) hs
    next => cases hs
  | seesHandlesDropped | seesSendersDropped | seesCancelled =>
    obtain ⟨-, hs⟩ := Option.ite_none_right_eq_some.mp hs
    exact hacts hclear (by simp) hs
  | continues =>
    simp only [Queues.step] at hs
    split at hs
    next turn s htask => exact absurd htask (hfree turn s)
    next => cases hs

end Steps

/-! ## Runs -/

/-- Along a run the session is responsive in every state, and in the loop stays so whenever it is
called, if and only if every turn has room where it sends and the handshake misses no call. -/
theorem responsive_iff {config : SessionConfig} {as : List (QueueAction P)} {q : Queues P}
    (hrun : Transition.Run (Queues.step config) (.start P config) as q) :
    (∀ bs r, bs <+: as → Transition.exec (Queues.step config) (.start P config) bs = some r →
      r.Responsive config ∧ (r.InLoop → ∀ a r', a.calls = true → r.step config a = some r' →
        r'.Responsive config)) ↔
      Transition.Always (Queues.step config) (fun q a => q.Flows a ∧ q.Hears a)
        (.start P config) as := by
  have hstart : (Queues.start P config).Free := free_of_session rfl
  have hclear : (Queues.start P config).Clear := by
    refine ⟨fun _ => rfl, ?_⟩
    rintro ⟨s, ⟨⟩⟩
  have hreached : (Queues.start P config).task.Reached config := ⟨[], .nil⟩
  rw [Transition.always_reached_iff, and_iff_right
    ((responsive_calls_iff hreached fun hnot => absurd hstart hnot).mpr ⟨hstart, hclear⟩)]
  refine hrun.always_iff (P := fun _ q => q.task.Reached config ∧ q.Free ∧ q.Clear)
    ⟨hreached, hstart, hclear⟩ ?_
  rintro as q q' a - ⟨hq, hfree, hclear⟩ hs
  obtain ⟨hreached', hflows, hstalled⟩ := step_free hq hfree hs
  have hhears := clear_iff_hears hfree hclear hs
  have hcalls := responsive_calls_iff hreached' hstalled
  rw [hflows, hhears] at hcalls
  refine ⟨?_, fun ha => ⟨hreached', hflows.mpr ha.1, hhears.mpr ha.2⟩⟩
  rw [← hcalls]
  constructor
  · exact fun h => h q' hs
  · intro h r hr
    rw [hs] at hr
    cases hr
    exact h

/-- The loop begins, and a GET opens the common stream. -/
def listeningRun : List (QueueAction bare) :=
  [.pushes (.initializeRequest (.request ⟨.number 0, Meta.staticEmpty⟩)), .takesEvent,
    .sends (.response ⟨.number 0, ()⟩), .takesInitializeResponse true true,
    .pushes (.resume ⟨none, 0⟩), .takesEvent]

/-- The service sends `n` requests of its own. -/
def unreadRun (n : Nat) : List (QueueAction bare) :=
  (List.replicate n [.sends (.request ⟨.number 0, ()⟩), .takesRequest]).flatten

/-- Nobody reads the common stream, and a DELETE comes. -/
theorem run_asked {n : Nat} {b : Bool}
    (h : ((Transition.exec (Queues.step .default) (.start bare .default)
      (listeningRun ++ unreadRun n)).any fun q =>
        q.handles && q.events.isEmpty && q.stalled == b) = true) :
    ∃ q, Transition.Run (Queues.step .default) (.start bare .default)
        (listeningRun ++ unreadRun n ++ [.pushes .close]) q ∧
      q.events = [.close] ∧ q.stalled = b := by
  obtain ⟨q, hexec, hq⟩ := (Option.any_eq_true _ _).mp h
  simp only [Bool.and_eq_true, List.isEmpty_iff, beq_iff_eq] at hq
  obtain ⟨⟨hhandles, hevents⟩, hstalled⟩ := hq
  refine ⟨{ q with events := [.close] }, (Transition.run_of_exec hexec).snoc ?_, rfl, hstalled⟩
  simp [Queues.step, hhandles, hevents, SessionConfig.default]

/-- The handshake is over when the DELETE comes, and nothing is sent on a full channel. -/
theorem always_listeningRun : Transition.Always (Queues.step .default)
    (fun q a => q.Flows a ∧ q.Hears a) (.start bare .default)
    (listeningRun ++ [.pushes .close]) := by
  refine Transition.always_cons ⟨trivial, ?_⟩ rfl
    (Transition.always_cons ⟨?_, ?_⟩ rfl
    (Transition.always_cons ⟨trivial, trivial⟩ rfl
    (Transition.always_cons ⟨trivial, trivial⟩ rfl
    (Transition.always_cons ⟨trivial, ?_⟩ rfl
    (Transition.always_cons ⟨?_, ?_⟩ rfl
    (Transition.always_cons ⟨trivial, ?_⟩ rfl trivial))))))
  -- the initialize request is pushed, and taken
  · intro hcloses
    cases hcloses
  · rintro event - s htask
    cases htask
  · rintro s request events - hevents - event hevent
    cases hevents
    cases hevent
  -- the GET resumes the common stream
  · rintro - ⟨s, htask⟩
    cases htask
  · rintro event hevent s -
    cases hevent
    trivial
  · rintro s request events htask
    cases htask
  -- the DELETE
  · rintro - ⟨s, htask⟩
    cases htask

/-- A DELETE that comes when nothing is unread, and one that comes when the channel is full. -/
theorem responsive_iff_askedRun :
    (∃ q, Transition.Run (Queues.step .default) (.start bare .default)
        (listeningRun ++ [.pushes .close]) q ∧ q.Asked ∧ q.Responsive .default) ∧
    ∃ q, Transition.Run (Queues.step .default) (.start bare .default)
        (listeningRun ++ unreadRun 16 ++ [.pushes .close]) q ∧ q.Asked ∧
      ((∀ bs r, bs <+: listeningRun ++ unreadRun 16 ++ [.pushes .close] →
          Transition.exec (Queues.step .default) (.start bare .default) bs = some r →
          r.Responsive .default ∧ (r.InLoop → ∀ a r', a.calls = true →
            r.step .default a = some r' → r'.Responsive .default)) ↔
        Transition.Always (Queues.step .default) (fun q a => q.Flows a ∧ q.Hears a)
          (.start bare .default) (listeningRun ++ unreadRun 16 ++ [.pushes .close])) := by
  constructor
  · have hexec : ∃ q, Transition.exec (Queues.step .default) (.start bare .default)
        (listeningRun ++ [.pushes .close]) = some q ∧ q.events = [.close] := ⟨_, rfl, rfl⟩
    obtain ⟨q, hexec, hevents⟩ := hexec
    have hrun := Transition.run_of_exec hexec
    refine ⟨q, hrun, ⟨.close, by simp [hevents], rfl⟩, ?_⟩
    exact ((responsive_iff hrun).mpr always_listeningRun _ q List.prefix_rfl hexec).1
  · obtain ⟨q, hrun, hevents, -⟩ := run_asked (n := 16) (b := false) (by decide +kernel)
    exact ⟨q, hrun, ⟨.close, by simp [hevents], rfl⟩, responsive_iff hrun⟩

/-- One request more: the worker sees neither the DELETE nor the token. -/
theorem stalled_consumer_wedges :
    ∃ q, Transition.Run (Queues.step .default) (.start bare .default)
        (listeningRun ++ unreadRun 17 ++ [.pushes .close] ++ [.cancels]) q ∧
      q.events = [.close] ∧ q.cancelled = true ∧ q.Stalled ∧
      (∀ a ∈ [.takesEvent, .seesCancelled, .continues], q.step .default a = none) ∧
      ¬ q.Responsive .default := by
  obtain ⟨q, hrun, hevents, hstalled⟩ := run_asked (n := 17) (b := true) (by decide +kernel)
  obtain ⟨turn, s, htask, hwaits⟩ := Queues.stalled_iff.mp hstalled
  refine ⟨{ q with cancelled := true }, hrun.snoc rfl, hevents, rfl, ⟨turn, s, htask, hwaits⟩, ?_,
    fun h => h.notStalled (.inl rfl) ⟨turn, s, htask, hwaits⟩⟩
  simp [Queues.step, hevents, Queues.begins, Queues.acts, htask, State.after_eq_none.mpr hwaits]

end Rmcp.Session
