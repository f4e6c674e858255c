import Rmcp.Service.Correlation
import Rmcp.Service.Handshake
import Mathlib.Algebra.Group.Nat.Defs

/-!
# The two sides of a handshake

`serve_client` and `serve_server` against each other, over a transport that loses nothing and
keeps the order of each direction, and then the two loops that they start. A side takes the
next message of the other one, or learns that the transport is closed when there is none left
and the other side has quit.

The service of the client and the handler of the server are parameters. The handler sends
nothing while the handshake goes on; the loops may do whatever loops do.

Results:
1. `Agreed.step`: what each side knows, in every phase.
2. `handshake_agreement`: neither side fails, the three messages of the handshake cross first,
   and both sides end up with the information about each other.
-/

namespace Rmcp.Service

/-- The service of the client, and the handler of the server. -/
structure Parties (L : Leaves) where
  getInfo : ClientInfo L
  handler : ClientInfo L → Except ErrorData (ServerInfo L)

structure Connection (L : Leaves) (E : Type) where
  client : ClientPhase L E
  server : ServerPhase L E
  -- what is in flight, and what has crossed
  toServer : List (ClientMessage L)
  toClient : List (ServerMessage L)
  crossedToServer : List (ClientMessage L)
  crossedToClient : List (ServerMessage L)
  /-- The request ids that the running client has drawn. -/
  drawn : List RequestId

namespace Connection

inductive Action (L : Leaves) (E : Type)
  | clientHandsOver
  | clientSent
  | clientReceives
  | clientSetsPeerInfo (info : ServerInfo L)
  | clientLoop (a : Service.Action (roleClient L) E)
  | serverHandsOver
  | serverSent
  | serverReceives
  | serverHandled
  | serverNotificationHandled
  | serverSetsPeerInfo (info : ClientInfo L)
  | serverLoop (a : Service.Action (roleServer L) E)

variable {L : Leaves} {E : Type}

def start : Connection L E where
  client := .start
  server := .awaitRequest
  toServer := []
  toClient := []
  crossedToServer := []
  crossedToClient := []
  drawn := []

end Connection

variable {L : Leaves} {E : Type}

/-- What a loop learns from the transport. -/
def Action.ofTransport {R : ServiceRole} : Option (RxJsonRpcMessage R) → Action R E
  | some message => .received message
  | none => .inputClosed

def Action.isOfTransport {R : ServiceRole} : Action R E → Bool
  | .received _ | .inputClosed => true
  | _ => false

namespace ClientPhase

/-- The next message, or the end of them, reaches the client. -/
def takes (message : Option (ServerMessage L)) : ClientPhase L E → Option (ClientPhase L E)
  | .running peer loop => (step loop (.ofTransport message)).map (.running peer)
  | phase => phase.received message

/-- The client has dropped its transport. -/
def hasClosed : ClientPhase L E → Bool
  | .running _ loop => loop.quit.isSome
  | .failed _ => true
  | _ => false

/-- The peer is public, and its information can be set again. -/
def setPeerInfo (info : ServerInfo L) : ClientPhase L E → Option (ClientPhase L E)
  | .running peer loop => some (.running (peer.setPeerInfo info) loop)
  | _ => none

end ClientPhase

namespace ServerPhase

/-- The next message, or the end of them, reaches the server. -/
def takes (message : Option (ClientMessage L)) : ServerPhase L E → Option (ServerPhase L E)
  | .running peer loop => (step loop (.ofTransport message)).map (.running peer)
  | phase => phase.received message

/-- The server has dropped its transport. -/
def hasClosed : ServerPhase L E → Bool
  | .running _ loop => loop.quit.isSome
  | .failed _ => true
  | _ => false

/-- The handler of the initialize request has the peer, and so has who holds the service. -/
def setPeerInfo (info : ClientInfo L) : ServerPhase L E → Option (ServerPhase L E)
  | .handling request id peer => some (.handling request id (peer.setPeerInfo info))
  | .running peer loop => some (.running (peer.setPeerInfo info) loop)
  | _ => none

end ServerPhase

namespace Connection

open ClientPhase ServerPhase

/-- What the transport has taken over in a step of a loop. -/
def newlyAccepted {R : ServiceRole} (loop loop' : Serve R E) : List (TxJsonRpcMessage R) :=
  loop'.accepted.drop loop.accepted.length

def step (P : Parties L) (s : Connection L E) : Action L E → Option (Connection L E)
  | .clientHandsOver =>
    (s.client.handsOver P.getInfo).map fun (message, client) =>
      { s with client, toServer := s.toServer ++ [message] }
  | .clientSent => (s.client.sent (.ok ())).map fun client => { s with client }
  | .clientReceives =>
    match s.toClient with
    | message :: toClient =>
      (s.client.takes (some message)).map fun client =>
        { s with client, toClient, crossedToClient := s.crossedToClient ++ [message] }
    | [] =>
      if s.server.hasClosed then (s.client.takes none).map fun client => { s with client } else none
  | .clientSetsPeerInfo info => (s.client.setPeerInfo info).map fun client => { s with client }
  | .clientLoop a =>
    match s.client with
    | .running peer loop =>
      if a.isOfTransport then none
      else (Service.step loop a).map fun loop' =>
        { s with
          client := .running peer loop'
          toServer := s.toServer ++ newlyAccepted loop loop'
          drawn := s.drawn ++ (handles loop a).map (·.id) }
    | _ => none
  | .serverHandsOver =>
    s.server.handsOver.map fun (message, server) =>
      { s with server, toClient := s.toClient ++ [message] }
  | .serverSent => (s.server.sent (.ok ())).map fun server => { s with server }
  | .serverReceives =>
    match s.toServer with
    | message :: toServer =>
      (s.server.takes (some message)).map fun server =>
        { s with server, toServer, crossedToServer := s.crossedToServer ++ [message] }
    | [] =>
      if s.client.hasClosed then (s.server.takes none).map fun server => { s with server } else none
  | .serverHandled =>
    match s.server with
    | .handling request _ _ =>
      (s.server.handled (handleRequest P.handler request)).map fun server => { s with server }
    | _ => none
  | .serverNotificationHandled => s.server.notificationHandled.map fun server => { s with server }
  | .serverSetsPeerInfo info => (s.server.setPeerInfo info).map fun server => { s with server }
  | .serverLoop a =>
    match s.server with
    | .running peer loop =>
      if a.isOfTransport then none
      else (Service.step loop a).map fun loop' =>
        { s with
          server := .running peer loop'
          toClient := s.toClient ++ newlyAccepted loop loop' }
    | _ => none

end Connection

/-! ## What the transport has taken over -/

section Accepted

variable {R : ServiceRole} {s s' : Serve R E} {a : Action R E}

theorem background_accepted (h : s.background a = some s') : s.accepted <+: s'.accepted := by
  cases background_step h with
  | sendAccepted | responseAccepted => exact List.prefix_append ..
  | _ => exact List.prefix_rfl

theorem loop_accepted (h : s.loop a = some s') : s'.accepted = s.accepted := by
  rcases loop_turn h with ⟨e, s₀, htaken, rfl⟩ | ⟨reason, rfl⟩
  · have htaken : s₀.accepted = s.accepted := by cases htaken <;> rfl
    exact (s₀.turn_tasks e).accepted_eq.trans htaken
  · rfl

theorem step_accepted (h : step s a = some s') : s.accepted <+: s'.accepted := by
  rcases background_or_loop h with hbackground | ⟨-, -, hloop⟩
  · exact background_accepted hbackground
  · rw [loop_accepted hloop]

theorem append_newlyAccepted (h : step s a = some s') :
    s.accepted ++ Connection.newlyAccepted s s' = s'.accepted :=
  List.prefix_iff_eq_append.mp (step_accepted h)

/-- What reaches a loop makes it hand nothing over, and draw nothing. -/
theorem step_ofTransport {message : Option (RxJsonRpcMessage R)}
    (h : step s (.ofTransport message) = some s') :
    s'.accepted = s.accepted ∧ s'.requestCalls = s.requestCalls := by
  have hbackground : s.background (.ofTransport message) = none := by cases message <;> rfl
  unfold step at h
  rw [hbackground] at h
  have hloop := (Option.ite_none_right_eq_some.mp h).2
  exact ⟨loop_accepted hloop, (loop_nextProgressToken hloop).1⟩

end Accepted

/-! ## The invariant -/

/-- The information of the server with the version that the two agree on. -/
def agreedInfo (c : ClientInfo L) (info : ServerInfo L) : ServerInfo L :=
  { info with protocolVersion := ⟨min c.protocolVersion.version info.protocolVersion.version⟩ }

def initializeResponse (c : ClientInfo L) (info : ServerInfo L) : ServerMessage L :=
  .response ⟨.number 0, .initializeResult (agreedInfo c info)⟩

/-- The ids that a client has drawn since the handshake. -/
def DrawnBy (loop : Serve (roleClient L) E) (drawn : List RequestId) : Prop :=
  drawn = (List.range loop.requestCalls).map fun k => .number (1 + UInt32.ofNat k)

section Invariant

variable (c : ClientInfo L) (info : ServerInfo L)

namespace ClientPhase

/-- What the client has handed to its transport. -/
def handedOver : ClientPhase L E → List (ClientMessage L)
  | .start | .failed _ => []
  | .sendingRequest .. | .awaitResponse .. | .initialized .. => [initializeRequest c (.number 0)]
  | .sendingNotification .. => [initializeRequest c (.number 0), initializedNotification]
  | .running _ loop => [initializeRequest c (.number 0), initializedNotification] ++ loop.accepted

/-- What the client knows when `crossed` has reached it. -/
def Agreed (crossed : List (ServerMessage L)) (drawn : List RequestId) : ClientPhase L E → Prop
  | .start => crossed = [] ∧ drawn = []
  | .sendingRequest id idProvider | .awaitResponse id idProvider =>
    (id = .number 0 ∧ idProvider = 1) ∧ crossed = [] ∧ drawn = []
  | .initialized result idProvider | .sendingNotification result idProvider =>
    (result = agreedInfo c info ∧ idProvider = 1) ∧ crossed = [initializeResponse c info] ∧ drawn = []
  | .running peer loop =>
    peer.info = some (agreedInfo c info) ∧ [initializeResponse c info] <+: crossed ∧
      Issued 1 loop ∧ DrawnBy loop drawn
  | .failed _ => False

end ClientPhase

namespace ServerPhase

/-- What the server has handed to its transport. -/
def handedOver : ServerPhase L E → List (ServerMessage L)
  | .awaitRequest | .handling .. | .initialized .. | .refused .. | .sendingError _ | .failed _ => []
  | .sendingResponse _ | .awaitNotification _ | .notified _ => [initializeResponse c info]
  | .running _ loop => initializeResponse c info :: loop.accepted

/-- What the server knows when `crossed` has reached it. -/
def Agreed (crossed : List (ClientMessage L)) : ServerPhase L E → Prop
  | .awaitRequest => crossed = []
  | .handling request id peer =>
    (request.params = c ∧ id = .number 0 ∧ peer.info = some c) ∧
      crossed = [initializeRequest c (.number 0)]
  | .initialized result id peer =>
    (result = agreedInfo c info ∧ id = .number 0 ∧ peer.info = some c) ∧
      crossed = [initializeRequest c (.number 0)]
  | .sendingResponse peer | .awaitNotification peer =>
    peer.info = some c ∧ crossed = [initializeRequest c (.number 0)]
  | .notified peer =>
    peer.info = some c ∧ crossed = [initializeRequest c (.number 0), initializedNotification]
  | .running peer _ =>
    peer.info = some c ∧ [initializeRequest c (.number 0), initializedNotification] <+: crossed
  | .refused .. | .sendingError _ | .failed _ => False

end ServerPhase

/-- What has crossed and what is in flight is what the other side has said, and each side is
where what has reached it puts it. -/
structure Agreed (s : Connection L E) : Prop where
  toServer : s.crossedToServer ++ s.toServer = s.client.handedOver c
  toClient : s.crossedToClient ++ s.toClient = s.server.handedOver c info
  client : s.client.Agreed c info s.crossedToClient s.drawn
  server : s.server.Agreed c info s.crossedToServer

end Invariant

section Steps

variable {c : ClientInfo L} {info : ServerInfo L} {crossed : List (ServerMessage L)}
  {crossed' : List (ClientMessage L)} {drawn : List RequestId}

namespace ClientPhase

variable {phase phase' : ClientPhase L E}

theorem agreed_handsOver {message : ClientMessage L} (h : phase.Agreed c info crossed drawn)
    (hs : phase.handsOver c = some (message, phase')) :
    phase'.Agreed c info crossed drawn ∧ phase'.handedOver c = phase.handedOver c ++ [message] := by
  cases phase with
  | start =>
    cases hs
    exact ⟨⟨⟨rfl, rfl⟩, h⟩, rfl⟩
  | initialized result idProvider =>
    cases hs
    exact ⟨h, rfl⟩
  | _ => cases hs

theorem agreed_sent (h : phase.Agreed c info crossed drawn) (hs : phase.sent (.ok ()) = some phase') :
    phase'.Agreed c info crossed drawn ∧ phase'.handedOver c = phase.handedOver c := by
  cases phase with
  | sendingRequest id idProvider =>
    cases hs
    exact ⟨h, rfl⟩
  | sendingNotification result idProvider =>
    cases hs
    obtain ⟨⟨rfl, rfl⟩, rfl, rfl⟩ := h
    exact ⟨⟨rfl, List.prefix_rfl, .start 1 0, rfl⟩, rfl⟩
  | _ => cases hs

/-- The first message that reaches the client is the response. -/
theorem agreed_takes {message : ServerMessage L} (h : phase.Agreed c info crossed drawn)
    (hfirst : crossed = [] → message = initializeResponse c info)
    (hs : phase.takes (some message) = some phase') :
    phase'.Agreed c info (crossed ++ [message]) drawn ∧ phase'.handedOver c = phase.handedOver c := by
  cases phase with
  | awaitResponse id idProvider =>
    obtain ⟨⟨rfl, rfl⟩, rfl, rfl⟩ := h
    obtain rfl := hfirst rfl
    cases hs
    exact ⟨⟨⟨rfl, rfl⟩, rfl, rfl⟩, rfl⟩
  | running peer loop =>
    obtain ⟨hpeer, hcrossed, hissued, hdrawn⟩ := h
    obtain ⟨loop', hloop, rfl⟩ := Option.map_eq_some_iff.mp hs
    obtain ⟨haccepted, hcalls⟩ := step_ofTransport hloop
    refine ⟨⟨hpeer, hcrossed.trans (List.prefix_append _ _), (hissued.step hloop).1, ?_⟩, ?_⟩
    · rw [DrawnBy, hcalls]
      exact hdrawn
    · rw [handedOver, handedOver, haccepted]
  | _ => cases hs

/-- A client that learns of the end has been answered. -/
theorem agreed_takes_none (h : phase.Agreed c info crossed drawn) (hanswered : crossed ≠ [])
    (hs : phase.takes none = some phase') :
    phase'.Agreed c info crossed drawn ∧ phase'.handedOver c = phase.handedOver c := by
  cases phase with
  | awaitResponse id idProvider => exact absurd h.2.1 hanswered
  | running peer loop =>
    obtain ⟨hpeer, hcrossed, hissued, hdrawn⟩ := h
    obtain ⟨loop', hloop, rfl⟩ := Option.map_eq_some_iff.mp hs
    obtain ⟨haccepted, hcalls⟩ := step_ofTransport hloop
    refine ⟨⟨hpeer, hcrossed, (hissued.step hloop).1, ?_⟩, ?_⟩
    · rw [DrawnBy, hcalls]
      exact hdrawn
    · rw [handedOver, handedOver, haccepted]
  | _ => cases hs

theorem agreed_setPeerInfo {info' : ServerInfo L} (h : phase.Agreed c info crossed drawn)
    (hs : phase.setPeerInfo info' = some phase') :
    phase'.Agreed c info crossed drawn ∧ phase'.handedOver c = phase.handedOver c := by
  cases phase with
  | running peer loop =>
    cases hs
    exact ⟨⟨Peer.info_setPeerInfo h.1 info', h.2⟩, rfl⟩
  | _ => cases hs

/-- The ids go on from the one of the handshake. -/
theorem agreed_loop {peer : Peer (ServerInfo L)} {loop loop' : Serve (roleClient L) E}
    {a : Action (roleClient L) E} (h : (running peer loop).Agreed c info crossed drawn)
    (hs : step loop a = some loop') :
    (running peer loop').Agreed c info crossed (drawn ++ (handles loop a).map (·.id)) := by
  obtain ⟨hpeer, hcrossed, hissued, hdrawn⟩ := h
  refine ⟨hpeer, hcrossed, (hissued.step hs).1, ?_⟩
  rcases step_handles hs with ⟨options, hhandles, hcalls, -⟩ | ⟨hhandles, hcalls, -⟩
  · rw [DrawnBy, hhandles, hcalls, List.range_succ, List.map_append, ← hdrawn]
    simp [Serve.requestHandle, hissued.next]
  · rw [DrawnBy, hhandles, hcalls, List.map_nil, List.append_nil]
    exact hdrawn

end ClientPhase

namespace ServerPhase

variable {phase phase' : ServerPhase L E}

/-- The first two messages that reach the server are those of the handshake. -/
theorem agreed_takes {message : ClientMessage L} (h : phase.Agreed c info crossed')
    (hfirst : crossed' = [] → message = initializeRequest c (.number 0))
    (hsecond : crossed' = [initializeRequest c (.number 0)] → message = initializedNotification)
    (hs : phase.takes (some message) = some phase') :
    phase'.Agreed c info (crossed' ++ [message]) ∧
      phase'.handedOver c info = phase.handedOver c info := by
  cases phase with
  | awaitRequest =>
    obtain rfl : crossed' = [] := h
    obtain rfl := hfirst rfl
    cases hs
    exact ⟨⟨⟨rfl, rfl, rfl⟩, rfl⟩, rfl⟩
  | awaitNotification peer =>
    obtain ⟨hpeer, rfl⟩ := h
    obtain rfl := hsecond rfl
    cases hs
    exact ⟨⟨hpeer, rfl⟩, rfl⟩
  | running peer loop =>
    obtain ⟨hpeer, hcrossed⟩ := h
    obtain ⟨loop', hloop, rfl⟩ := Option.map_eq_some_iff.mp hs
    refine ⟨⟨hpeer, hcrossed.trans (List.prefix_append _ _)⟩, ?_⟩
    rw [handedOver, handedOver, (step_ofTransport hloop).1]
  | _ => cases hs

/-- A server that learns of the end has been notified. -/
theorem agreed_takes_none (h : phase.Agreed c info crossed')
    (hnotified : [initializeRequest c (.number 0), initializedNotification] <+: crossed')
    (hs : phase.takes none = some phase') :
    phase'.Agreed c info crossed' ∧ phase'.handedOver c info = phase.handedOver c info := by
  have hlength := hnotified.length_le
  cases phase with
  | awaitRequest =>
    obtain rfl : crossed' = [] := h
    simp at hlength
  | awaitNotification peer =>
    obtain ⟨-, rfl⟩ := h
    simp at hlength
  | running peer loop =>
    obtain ⟨loop', hloop, rfl⟩ := Option.map_eq_some_iff.mp hs
    refine ⟨h, ?_⟩
    rw [handedOver, handedOver, (step_ofTransport hloop).1]
  | _ => cases hs

theorem agreed_handled {request : InitializeRequest L} {id : RequestId} {peer : Peer (ClientInfo L)}
    {handler : ClientInfo L → Except ErrorData (ServerInfo L)} (hhandler : handler c = .ok info)
    (h : (handling request id peer : ServerPhase L E).Agreed c info crossed')
    (hs : (handling request id peer).handled (handleRequest handler request) = some phase') :
    phase'.Agreed c info crossed' ∧ phase'.handedOver c info = [] := by
  obtain ⟨⟨rfl, rfl, hpeer⟩, hcrossed⟩ := h
  simp only [handled, handleRequest, hhandler, Except.map, negotiate_eq, Option.some.injEq] at hs
  subst hs
  exact ⟨⟨⟨rfl, rfl, hpeer⟩, hcrossed⟩, rfl⟩

theorem agreed_handsOver {message : ServerMessage L} (h : phase.Agreed c info crossed')
    (hs : phase.handsOver = some (message, phase')) :
    phase'.Agreed c info crossed' ∧
      phase'.handedOver c info = phase.handedOver c info ++ [message] := by
  cases phase with
  | initialized result id peer =>
    obtain ⟨⟨rfl, rfl, hpeer⟩, hcrossed⟩ := h
    cases hs
    exact ⟨⟨hpeer, hcrossed⟩, rfl⟩
  | refused error id => exact h.elim
  | _ => cases hs

theorem agreed_sent (h : phase.Agreed c info crossed') (hs : phase.sent (.ok ()) = some phase') :
    phase'.Agreed c info crossed' ∧ phase'.handedOver c info = phase.handedOver c info := by
  cases phase with
  | sendingResponse peer =>
    cases hs
    exact ⟨h, rfl⟩
  | sendingError error => exact h.elim
  | _ => cases hs

theorem agreed_notificationHandled (h : phase.Agreed c info crossed')
    (hs : phase.notificationHandled = some phase') :
    phase'.Agreed c info crossed' ∧ phase'.handedOver c info = phase.handedOver c info := by
  cases phase with
  | notified peer =>
    obtain ⟨hpeer, rfl⟩ := h
    cases hs
    exact ⟨⟨hpeer, List.prefix_rfl⟩, rfl⟩
  | _ => cases hs

theorem agreed_setPeerInfo {info' : ClientInfo L} (h : phase.Agreed c info crossed')
    (hs : phase.setPeerInfo info' = some phase') :
    phase'.Agreed c info crossed' ∧ phase'.handedOver c info = phase.handedOver c info := by
  cases phase with
  | handling request id peer =>
    obtain ⟨⟨hparams, hid, hpeer⟩, hcrossed⟩ := h
    cases hs
    exact ⟨⟨⟨hparams, hid, Peer.info_setPeerInfo hpeer info'⟩, hcrossed⟩, rfl⟩
  | running peer loop =>
    cases hs
    exact ⟨⟨Peer.info_setPeerInfo h.1 info', h.2⟩, rfl⟩
  | _ => cases hs

end ServerPhase

/-- A side that has closed its transport has handed over all of its handshake before. -/
theorem ClientPhase.handedOver_of_hasClosed {phase : ClientPhase L E}
    (h : phase.Agreed c info crossed drawn) (hclosed : phase.hasClosed = true) :
    [initializeRequest c (.number 0), initializedNotification] <+: phase.handedOver c := by
  cases phase with
  | running peer loop => exact List.prefix_append _ _
  | failed => exact h.elim
  | _ => cases hclosed

theorem ServerPhase.handedOver_of_hasClosed {phase : ServerPhase L E}
    (h : phase.Agreed c info crossed') (hclosed : phase.hasClosed = true) :
    phase.handedOver c info ≠ [] := by
  cases phase with
  | running peer loop => exact List.cons_ne_nil _ _
  | failed => exact h.elim
  | _ => cases hclosed

/-- The first thing the client says, and the second. -/
theorem ClientPhase.handedOver_cons (phase : ClientPhase L E) :
    phase.handedOver c = [] ∨ phase.handedOver c = [initializeRequest c (.number 0)] ∨
      [initializeRequest c (.number 0), initializedNotification] <+: phase.handedOver c := by
  cases phase with
  | start | failed => exact .inl rfl
  | sendingRequest | awaitResponse | initialized => exact .inr (.inl rfl)
  | sendingNotification => exact .inr (.inr List.prefix_rfl)
  | running peer loop => exact .inr (.inr (List.prefix_append _ _))

theorem ServerPhase.handedOver_cons (phase : ServerPhase L E) :
    phase.handedOver c info = [] ∨ ∃ later, phase.handedOver c info = initializeResponse c info :: later := by
  cases phase with
  | sendingResponse | awaitNotification | notified | running => exact .inr ⟨_, rfl⟩
  | _ => exact .inl rfl

theorem agreed_start : Agreed c info (Connection.start : Connection L E) :=
  ⟨rfl, rfl, ⟨rfl, rfl⟩, rfl⟩

section Receive

variable {P : Parties L} {s s' : Connection L E}

theorem Agreed.clientReceives (h : Agreed P.getInfo info s)
    (hs : Connection.step P s .clientReceives = some s') : Agreed P.getInfo info s' := by
  obtain ⟨htoServer, htoClient, hclient, hserver⟩ := h
  simp only [Connection.step] at hs
  split at hs
  next message toClient hqueue =>
    rw [hqueue] at htoClient
    obtain ⟨client, htakes, rfl⟩ := Option.map_eq_some_iff.mp hs
    have hfirst : s.crossedToClient = [] → message = initializeResponse P.getInfo info := by
      intro hcrossed
      rw [hcrossed, List.nil_append] at htoClient
      have hsaid : s.server.handedOver P.getInfo info = [] ∨
          ∃ later, s.server.handedOver P.getInfo info = initializeResponse P.getInfo info :: later :=
        s.server.handedOver_cons
      rcases hsaid with hnil | ⟨later, hcons⟩
      · rw [hnil] at htoClient
        cases htoClient
      · rw [hcons] at htoClient
        exact (List.cons.inj htoClient).1
    obtain ⟨hclient', hsaid⟩ := ClientPhase.agreed_takes hclient hfirst htakes
    exact ⟨htoServer.trans hsaid.symm, by simpa using htoClient, hclient', hserver⟩
  next hqueue =>
    obtain ⟨hclosed, hs⟩ := Option.ite_none_right_eq_some.mp hs
    obtain ⟨client, htakes, rfl⟩ := Option.map_eq_some_iff.mp hs
    have hanswered : s.crossedToClient ≠ [] := by
      intro hcrossed
      rw [hqueue, hcrossed] at htoClient
      exact ServerPhase.handedOver_of_hasClosed hserver hclosed htoClient.symm
    obtain ⟨hclient', hsaid⟩ := ClientPhase.agreed_takes_none hclient hanswered htakes
    exact ⟨htoServer.trans hsaid.symm, htoClient, hclient', hserver⟩

theorem Agreed.serverReceives (h : Agreed P.getInfo info s)
    (hs : Connection.step P s .serverReceives = some s') : Agreed P.getInfo info s' := by
  obtain ⟨htoServer, htoClient, hclient, hserver⟩ := h
  simp only [Connection.step] at hs
  split at hs
  next message toServer hqueue =>
    rw [hqueue] at htoServer
    obtain ⟨server, htakes, rfl⟩ := Option.map_eq_some_iff.mp hs
    have hsaid := s.client.handedOver_cons (c := P.getInfo)
    rw [← htoServer] at hsaid
    have hfirst : s.crossedToServer = [] →
        message = initializeRequest P.getInfo (.number 0) := by
      intro hcrossed
      rw [hcrossed, List.nil_append] at hsaid
      rcases hsaid with hnil | hone | ⟨later, htwo⟩
      · cases hnil
      · exact (List.cons.inj hone).1
      · exact (List.cons.inj htwo).1.symm
    have hsecond : s.crossedToServer = [initializeRequest P.getInfo (.number 0)] →
        message = initializedNotification := by
      intro hcrossed
      rw [hcrossed, List.singleton_append] at hsaid
      rcases hsaid with hnil | hone | ⟨later, htwo⟩
      · cases hnil
      · cases (List.cons.inj hone).2
      · exact (List.cons.inj (List.cons.inj htwo).2).1.symm
    obtain ⟨hserver', hkept⟩ := ServerPhase.agreed_takes hserver hfirst hsecond htakes
    exact ⟨by simpa using htoServer, htoClient.trans hkept.symm, hclient, hserver'⟩
  next hqueue =>
    obtain ⟨hclosed, hs⟩ := Option.ite_none_right_eq_some.mp hs
    obtain ⟨server, htakes, rfl⟩ := Option.map_eq_some_iff.mp hs
    have hnotified : [initializeRequest P.getInfo (.number 0), initializedNotification] <+:
        s.crossedToServer := by
      rw [hqueue, List.append_nil] at htoServer
      rw [htoServer]
      exact ClientPhase.handedOver_of_hasClosed hclient hclosed
    obtain ⟨hserver', hkept⟩ := ServerPhase.agreed_takes_none hserver hnotified htakes
    exact ⟨htoServer, htoClient.trans hkept.symm, hclient, hserver'⟩

theorem Agreed.clientLoop {a : Action (roleClient L) E} (h : Agreed P.getInfo info s)
    (hs : Connection.step P s (.clientLoop a) = some s') : Agreed P.getInfo info s' := by
  obtain ⟨htoServer, htoClient, hclient, hserver⟩ := h
  simp only [Connection.step] at hs
  split at hs
  next peer loop hphase =>
    obtain ⟨-, hs⟩ := Option.ite_none_left_eq_some.mp hs
    obtain ⟨loop', hloop, rfl⟩ := Option.map_eq_some_iff.mp hs
    rw [hphase] at htoServer hclient
    refine ⟨?_, htoClient, ClientPhase.agreed_loop hclient hloop, hserver⟩
    rw [ClientPhase.handedOver, ← append_newlyAccepted hloop, ← List.append_assoc,
      ← List.append_assoc, htoServer, ClientPhase.handedOver]
  next => cases hs

theorem Agreed.serverLoop {a : Action (roleServer L) E} (h : Agreed P.getInfo info s)
    (hs : Connection.step P s (.serverLoop a) = some s') : Agreed P.getInfo info s' := by
  obtain ⟨htoServer, htoClient, hclient, hserver⟩ := h
  simp only [Connection.step] at hs
  split at hs
  next peer loop hphase =>
    obtain ⟨-, hs⟩ := Option.ite_none_left_eq_some.mp hs
    obtain ⟨loop', hloop, rfl⟩ := Option.map_eq_some_iff.mp hs
    rw [hphase] at htoClient hserver
    refine ⟨htoServer, ?_, hclient, hserver⟩
    rw [ServerPhase.handedOver, ← append_newlyAccepted hloop, ← List.cons_append,
      ← List.append_assoc, htoClient, ServerPhase.handedOver]
  next => cases hs

end Receive

/-- One step of the two sides, whoever takes it. -/
theorem Agreed.step {P : Parties L} {s s' : Connection L E} {a : Connection.Action L E}
    (hhandler : P.handler P.getInfo = .ok info) (h : Agreed P.getInfo info s)
    (hs : Connection.step P s a = some s') : Agreed P.getInfo info s' := by
  have ⟨htoServer, htoClient, hclient, hserver⟩ := h
  cases a with
  | clientHandsOver =>
    obtain ⟨⟨message, client⟩, hover, rfl⟩ := Option.map_eq_some_iff.mp hs
    obtain ⟨hclient', hsaid⟩ := ClientPhase.agreed_handsOver hclient hover
    refine ⟨?_, htoClient, hclient', hserver⟩
    rw [hsaid, ← htoServer, List.append_assoc]
  | clientSent =>
    obtain ⟨client, hsent, rfl⟩ := Option.map_eq_some_iff.mp hs
    obtain ⟨hclient', hsaid⟩ := ClientPhase.agreed_sent hclient hsent
    exact ⟨htoServer.trans hsaid.symm, htoClient, hclient', hserver⟩
  | clientReceives => exact h.clientReceives hs
  | clientSetsPeerInfo info' =>
    obtain ⟨client, hset, rfl⟩ := Option.map_eq_some_iff.mp hs
    obtain ⟨hclient', hsaid⟩ := ClientPhase.agreed_setPeerInfo hclient hset
    exact ⟨htoServer.trans hsaid.symm, htoClient, hclient', hserver⟩
  | clientLoop a => exact h.clientLoop hs
  | serverHandsOver =>
    obtain ⟨⟨message, server⟩, hover, rfl⟩ := Option.map_eq_some_iff.mp hs
    obtain ⟨hserver', hsaid⟩ := ServerPhase.agreed_handsOver hserver hover
    refine ⟨htoServer, ?_, hclient, hserver'⟩
    rw [hsaid, ← htoClient, List.append_assoc]
  | serverSent =>
    obtain ⟨server, hsent, rfl⟩ := Option.map_eq_some_iff.mp hs
    obtain ⟨hserver', hsaid⟩ := ServerPhase.agreed_sent hserver hsent
    exact ⟨htoServer, htoClient.trans hsaid.symm, hclient, hserver'⟩
  | serverReceives => exact h.serverReceives hs
  | serverHandled =>
    simp only [Connection.step] at hs
    split at hs
    next request id peer hphase =>
      obtain ⟨server, hhandled, rfl⟩ := Option.map_eq_some_iff.mp hs
      rw [hphase] at htoClient hserver hhandled
      obtain ⟨hserver', hsaid⟩ := ServerPhase.agreed_handled hhandler hserver hhandled
      exact ⟨htoServer, htoClient.trans hsaid.symm, hclient, hserver'⟩
    next => cases hs
  | serverNotificationHandled =>
    obtain ⟨server, hhandled, rfl⟩ := Option.map_eq_some_iff.mp hs
    obtain ⟨hserver', hsaid⟩ := ServerPhase.agreed_notificationHandled hserver hhandled
    exact ⟨htoServer, htoClient.trans hsaid.symm, hclient, hserver'⟩
  | serverSetsPeerInfo info' =>
    obtain ⟨server, hset, rfl⟩ := Option.map_eq_some_iff.mp hs
    obtain ⟨hserver', hsaid⟩ := ServerPhase.agreed_setPeerInfo hserver hset
    exact ⟨htoServer, htoClient.trans hsaid.symm, hclient, hserver'⟩
  | serverLoop a => exact h.serverLoop hs

end Steps

/-! ## Runs -/

/-- A handshake has crossed, and then some of what the loop has handed over since; the rest of
that is in flight. -/
def Crossed {M : Type} (handshake later crossed inFlight : List M) : Prop :=
  ∃ n, crossed = handshake ++ later.take n ∧ inFlight = later.drop n

/-- Before the loop has handed anything over, that is the handshake and nothing else. -/
theorem crossed_nil {M : Type} {handshake crossed inFlight : List M} :
    Crossed handshake [] crossed inFlight ↔ crossed = handshake ∧ inFlight = [] := by
  simp [Crossed]

theorem crossed_after {M : Type} {handshake later crossed inFlight : List M}
    (hcrossed : handshake <+: crossed) (hall : crossed ++ inFlight = handshake ++ later) :
    Crossed handshake later crossed inFlight := by
  obtain ⟨early, rfl⟩ := hcrossed
  rw [List.append_assoc, List.append_cancel_left_eq] at hall
  subst hall
  exact ⟨early.length, by simp, by simp⟩

/-- The first id comes round again after `2 ^ 32` of them. -/
theorem zero_notMem_of_drawnBy {loop : Serve (roleClient L) E} {drawn : List RequestId}
    (h : DrawnBy loop drawn) (hlength : drawn.length < 2 ^ 32) : .number 0 ∉ drawn := by
  intro hmem
  have hcalls : loop.requestCalls = drawn.length := by rw [h]; simp
  rw [h] at hmem
  obtain ⟨k, hk, hzero⟩ := List.mem_map.mp hmem
  have hrange : k < loop.requestCalls := List.mem_range.mp hk
  have hlt : k < 2 ^ 32 := by omega
  rw [NumberOrString.number.injEq, ← UInt32.toNat_inj, UInt32.toNat_add,
    UInt32.toNat_ofNat_of_lt' hlt] at hzero
  have hone : (1 : UInt32).toNat = 1 := rfl
  have hnone : (0 : UInt32).toNat = 0 := rfl
  omega

variable {P : Parties L} {info : ServerInfo L} {as : List (Connection.Action L E)}
  {s : Connection L E}

theorem agreed_of_run (hhandler : P.handler P.getInfo = .ok info)
    (hrun : Transition.Run (Connection.step P) .start as s) : Agreed P.getInfo info s :=
  hrun.invariant (P := fun _ s => Agreed P.getInfo info s) agreed_start
    fun _ h hs => h.step hhandler hs

/-- Neither side fails. When both run, the initialize request, its response and the initialized
notification have crossed, and what else has crossed or is in flight was handed over by the
loops since. Each side has the information of the other one, with the smaller protocol version,
and no id that the client draws is that of its initialize request, before they go round. -/
theorem handshake_agreement (hhandler : P.handler P.getInfo = .ok info)
    (hrun : Transition.Run (Connection.step P) .start as s) :
    (∀ error, s.client ≠ .failed error) ∧ (∀ error, s.server ≠ .failed error) ∧
      ∀ clientPeer clientLoop serverPeer serverLoop,
        s.client = .running clientPeer clientLoop → s.server = .running serverPeer serverLoop →
        Crossed [initializeRequest P.getInfo (.number 0), initializedNotification]
          clientLoop.accepted s.crossedToServer s.toServer ∧
        Crossed [.response ⟨.number 0, .initializeResult (agreedInfo P.getInfo info)⟩]
          serverLoop.accepted s.crossedToClient s.toClient ∧
        clientPeer.info = some (agreedInfo P.getInfo info) ∧
        serverPeer.info = some P.getInfo ∧
        (s.drawn.length < 2 ^ 32 → .number 0 ∉ s.drawn) := by
  obtain ⟨htoServer, htoClient, hclient, hserver⟩ := agreed_of_run hhandler hrun
  refine ⟨?_, ?_, ?_⟩
  · intro error hfailed
    rw [hfailed] at hclient
    exact hclient
  · intro error hfailed
    rw [hfailed] at hserver
    exact hserver
  · intro clientPeer clientLoop serverPeer serverLoop hclientRuns hserverRuns
    rw [hclientRuns] at htoServer hclient
    rw [hserverRuns] at htoClient hserver
    obtain ⟨hclientPeer, hanswered, -, hdrawn⟩ := hclient
    obtain ⟨hserverPeer, hnotified⟩ := hserver
    exact ⟨crossed_after hnotified htoServer, crossed_after hanswered htoClient,
      hclientPeer, hserverPeer, zero_notMem_of_drawnBy hdrawn⟩

/-- A client with the newer version, and a handler with the older one. -/
abbrev plainParties : Parties plainLeaves where
  getInfo := ⟨⟨"2025-03-26"⟩, .object [], ⟨"client", "1.0"⟩⟩
  handler _ := .ok ⟨⟨"2024-11-05"⟩, .object [], ⟨"server", "1.0"⟩, none⟩

/-- The handshake, and a call of a tool after it. -/
def calledRun : List (Connection.Action plainLeaves Unit) :=
  [.clientHandsOver, .clientSent, .serverReceives, .serverHandled, .serverHandsOver, .serverSent,
    .clientReceives, .clientHandsOver, .clientSent, .clientLoop (.requestCalled echoRequest ⟨none⟩),
    .serverReceives, .serverNotificationHandled]

theorem handshake_agreement_calledRun :
    ∃ (s : Connection plainLeaves Unit) (clientPeer : Peer (ServerInfo plainLeaves))
      (clientLoop : Serve (roleClient plainLeaves) Unit)
      (serverPeer : Peer (ClientInfo plainLeaves)) (serverLoop : Serve (roleServer plainLeaves) Unit),
      s.client = .running clientPeer clientLoop ∧ s.server = .running serverPeer serverLoop ∧
      s.drawn = [.number 1] ∧ clientLoop.accepted = [] ∧
      Crossed [initializeRequest plainParties.getInfo (.number 0), initializedNotification]
        clientLoop.accepted s.crossedToServer s.toServer ∧
      clientPeer.info = some ⟨⟨"2024-11-05"⟩, .object [], ⟨"server", "1.0"⟩, none⟩ ∧
      serverPeer.info = some plainParties.getInfo := by
  have hrun : ∃ s clientPeer clientLoop serverPeer serverLoop,
      Transition.exec (Connection.step plainParties) (.start : Connection plainLeaves Unit)
        calledRun = some s ∧ s.client = .running clientPeer clientLoop ∧
      s.server = .running serverPeer serverLoop ∧ s.drawn = [.number 1] ∧
      clientLoop.accepted = [] ∧
      clientPeer.info = some ⟨⟨"2024-11-05"⟩, .object [], ⟨"server", "1.0"⟩, none⟩ :=
    ⟨_, _, _, _, _, rfl, rfl, rfl, rfl, rfl, rfl⟩
  obtain ⟨s, clientPeer, clientLoop, serverPeer, serverLoop, hexec, hclient, hserver, hdrawn,
    haccepted, hinfo⟩ := hrun
  obtain ⟨-, -, hagreed⟩ := handshake_agreement rfl (Transition.run_of_exec hexec)
  obtain ⟨hcrossed, -, -, hserverInfo, -⟩ := hagreed _ _ _ _ hclient hserver
  exact ⟨s, clientPeer, clientLoop, serverPeer, serverLoop, hclient, hserver, hdrawn, haccepted,
    hcrossed, hinfo, hserverInfo⟩

end Rmcp.Service
