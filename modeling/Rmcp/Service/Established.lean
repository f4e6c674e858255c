import Rmcp.Service.Conversation

/-!
# The conversation after the handshake

A connection, from the first message of the handshake on, has a conversation of two loops in it: a
side whose handshake goes on is a loop that has not made a move yet. What the loops say to each
other while one of them is not there yet waits behind the rest of the handshake.

So what holds in every conversation holds of the two loops of a connection, and none of the
messages of the handshake gets in the way of it.

Results:
1. `Mirrors.step`: a step of the connection is one of the conversation, or none.
2. `connection_conversation`: every run of a connection has a conversation in it.
3. `session_answered`: whatever side calls, it is told what the other side returned.
-/

namespace Rmcp.Service

variable {L : Leaves} {E : Type}

/-- The client is the near side. -/
abbrev clientLink (L : Leaves) : Link where
  near := roleClient L
  setMeta m r := r.withExtensions L ⟨some m⟩
  extensions r := r.extensions L

def ClientPhase.loop : ClientPhase L E → Serve (roleClient L) E
  | .running _ loop => loop
  | _ => .start 1 0

def ServerPhase.loop : ServerPhase L E → Serve (roleServer L) E
  | .running _ loop => loop
  | _ => .start 0 0

/-- `t` is what the two loops of `s` say to each other. -/
structure Mirrors (s : Connection L E) (t : Conversation (clientLink L) E) : Prop where
  near : t.near = s.client.loop
  far : t.far = s.server.loop
  toFar : ∀ peer loop, s.server = .running peer loop → t.toFar = s.toServer
  toNear : ∀ peer loop, s.client = .running peer loop → t.toNear = s.toClient

theorem mirrors_start :
    Mirrors (Connection.start : Connection L E) (Conversation.start 1 0 0 0) := by
  refine ⟨rfl, rfl, fun _ _ hserver => ?_, fun _ _ hclient => ?_⟩
  · cases hserver
  · cases hclient

section Steps

variable {P : Parties L} {info : ServerInfo L} {s s' : Connection L E}
  {t : Conversation (clientLink L) E}

/-- A server that runs has had all of the handshake from the client. -/
theorem Agreed.client_notified (h : Agreed P.getInfo info s) {peer : Peer (ClientInfo L)}
    {loop : Serve (roleServer L) E} (hserver : s.server = .running peer loop) :
    [initializeRequest P.getInfo (.number 0), initializedNotification] <+:
      s.client.handedOver P.getInfo := by
  have hknown := h.server
  rw [hserver] at hknown
  rw [← h.toServer]
  exact hknown.2.trans (List.prefix_append _ _)

/-- A client that runs has been answered. -/
theorem Agreed.server_answered (h : Agreed P.getInfo info s) {peer : Peer (ServerInfo L)}
    {loop : Serve (roleClient L) E} (hclient : s.client = .running peer loop) :
    [initializeResponse P.getInfo info] <+: s.server.handedOver P.getInfo info := by
  have hknown := h.client
  rw [hclient] at hknown
  rw [← h.toClient]
  exact hknown.2.1.trans (List.prefix_append _ _)

/-- Behind the handshake is what the loop of the client has handed over. -/
theorem ClientPhase.handedOver_eq {phase : ClientPhase L E} {c : ClientInfo L}
    (h : [initializeRequest c (.number 0), initializedNotification] <+: phase.handedOver c) :
    phase.handedOver c =
      [initializeRequest c (.number 0), initializedNotification] ++ phase.loop.accepted := by
  have hlength := h.length_le
  cases phase with
  | sendingNotification | running => rfl
  | _ => simp [handedOver] at hlength

theorem ServerPhase.handedOver_eq {phase : ServerPhase L E} {c : ClientInfo L}
    {info : ServerInfo L} (h : [initializeResponse c info] <+: phase.handedOver c info) :
    phase.handedOver c info = [initializeResponse c info] ++ phase.loop.accepted := by
  have hlength := h.length_le
  cases phase with
  | sendingResponse | awaitNotification | notified | running => rfl
  | _ => simp [handedOver] at hlength

/-- The server has handled the notification, and its loop starts: what is in flight to it are
messages of the loop of the client. -/
theorem Mirrors.server_starts (hf : Mirrors s t) (h : Agreed P.getInfo info s)
    (ht : Conversation.Joined 1 0 0 0 t) {peer : Peer (ClientInfo L)}
    (hserver : s.server = .notified peer) :
    Mirrors { s with server := .running peer (.start 0 0) } t := by
  have hknown := h.server
  rw [hserver] at hknown
  have hcrossed : s.crossedToServer =
      [initializeRequest P.getInfo (.number 0), initializedNotification] := hknown.2
  have hfar : t.far = .start 0 0 := by rw [hf.far, hserver]; rfl
  refine ⟨hf.near, hfar, fun _ _ _ => ?_, hf.toNear⟩
  have hsaid := h.toServer
  have hprefix : [initializeRequest P.getInfo (.number 0), initializedNotification] <+:
      s.client.handedOver P.getInfo := by
    rw [← hsaid, hcrossed]
    exact List.prefix_append _ _
  rw [hcrossed, ClientPhase.handedOver_eq hprefix, List.append_cancel_left_eq] at hsaid
  have hflight := ht.toFar
  rw [hfar, hf.near] at hflight
  exact hflight.trans hsaid.symm

/-- The notification of the client is sent, and its loop starts: what is in flight to it are
messages of the loop of the server. -/
theorem Mirrors.client_starts (hf : Mirrors s t) (h : Agreed P.getInfo info s)
    (ht : Conversation.Joined 1 0 0 0 t) {result : InitializeResult L} {idProvider : UInt32}
    (hclient : s.client = .sendingNotification result idProvider) :
    Mirrors { s with client := .running ⟨some result⟩ (.start idProvider 0) } t := by
  have hknown := h.client
  rw [hclient] at hknown
  obtain ⟨⟨rfl, rfl⟩, hcrossed, -⟩ := hknown
  have hnear : t.near = .start 1 0 := by rw [hf.near, hclient]; rfl
  refine ⟨hnear, hf.far, hf.toFar, fun _ _ _ => ?_⟩
  have hsaid := h.toClient
  have hprefix : [initializeResponse P.getInfo info] <+: s.server.handedOver P.getInfo info := by
    rw [← hsaid, hcrossed]
    exact List.prefix_append _ _
  rw [hcrossed, ServerPhase.handedOver_eq hprefix, List.append_cancel_left_eq] at hsaid
  have hflight := ht.toNear
  rw [hnear, hf.far] at hflight
  exact hflight.trans hsaid.symm

/-- A step of the handshake, that starts no loop. -/
theorem Mirrors.quiet (hf : Mirrors s t) (hclient : s'.client.loop = s.client.loop)
    (hserver : s'.server.loop = s.server.loop)
    (htoServer : ∀ peer loop, s'.server = .running peer loop →
      (∃ peer' loop', s.server = .running peer' loop') ∧ s'.toServer = s.toServer)
    (htoClient : ∀ peer loop, s'.client = .running peer loop →
      (∃ peer' loop', s.client = .running peer' loop') ∧ s'.toClient = s.toClient) :
    Mirrors s' t := by
  refine ⟨hf.near.trans hclient.symm, hf.far.trans hserver.symm, fun peer loop hruns => ?_,
    fun peer loop hruns => ?_⟩
  · obtain ⟨⟨peer', loop', hruns'⟩, hsame⟩ := htoServer peer loop hruns
    rw [hsame]
    exact hf.toFar peer' loop' hruns'
  · obtain ⟨⟨peer', loop', hruns'⟩, hsame⟩ := htoClient peer loop hruns
    rw [hsame]
    exact hf.toNear peer' loop' hruns'

theorem Mirrors.clientHandsOver (hf : Mirrors s t) (h : Agreed P.getInfo info s)
    (hs : Connection.step P s .clientHandsOver = some s') : Mirrors s' t := by
  obtain ⟨⟨message, client⟩, hover, rfl⟩ := Option.map_eq_some_iff.mp hs
  -- the server cannot run before the client has said all of this
  have hnotified : ∀ peer loop, s.server ≠ .running peer loop := by
    intro peer loop hruns
    have hlength := (h.client_notified hruns).length_le
    cases hphase : s.client with
    | start | initialized => simp [hphase, ClientPhase.handedOver] at hlength
    | _ => simp [hphase, ClientPhase.handsOver] at hover
  refine hf.quiet ?_ rfl (fun peer loop hruns => absurd hruns (hnotified peer loop)) ?_
  · cases hphase : s.client with
    | start | initialized =>
      rw [hphase] at hover
      cases hover
      rfl
    | _ => simp [hphase, ClientPhase.handsOver] at hover
  · intro peer loop hruns
    cases hphase : s.client with
    | start | initialized =>
      rw [hphase] at hover
      cases hover
      cases hruns
    | _ => simp [hphase, ClientPhase.handsOver] at hover

theorem Mirrors.clientSent (hf : Mirrors s t) (h : Agreed P.getInfo info s)
    (ht : Conversation.Joined 1 0 0 0 t) (hs : Connection.step P s .clientSent = some s') :
    Mirrors s' t := by
  obtain ⟨client, hsent, rfl⟩ := Option.map_eq_some_iff.mp hs
  cases hphase : s.client with
  | sendingRequest id idProvider =>
    rw [hphase] at hsent
    cases hsent
    exact hf.quiet (by rw [hphase]; rfl) rfl (fun peer loop hruns => ⟨⟨peer, loop, hruns⟩, rfl⟩)
      fun peer loop hruns => by cases hruns
  | sendingNotification result idProvider =>
    rw [hphase] at hsent
    cases hsent
    exact hf.client_starts h ht hphase
  | _ =>
    rw [hphase] at hsent
    cases hsent

/-- What reaches a side whose handshake goes on starts no loop. -/
theorem ClientPhase.loop_of_received {phase phase' : ClientPhase L E}
    {message : Option (ServerMessage L)} (hs : phase.received message = some phase') :
    phase'.loop = phase.loop ∧ ∀ peer loop, phase' ≠ .running peer loop := by
  cases phase with
  | awaitResponse id idProvider =>
    simp only [received] at hs
    split at hs
    · cases hs
      exact ⟨rfl, fun _ _ => by simp⟩
    · split at hs
      · cases hs
        exact ⟨rfl, fun _ _ => by simp⟩
      · split at hs <;> cases hs <;> exact ⟨rfl, fun _ _ => by simp⟩
  | _ => cases hs

theorem ServerPhase.loop_of_received {phase phase' : ServerPhase L E}
    {message : Option (ClientMessage L)} (hs : phase.received message = some phase') :
    phase'.loop = phase.loop ∧ ∀ peer loop, phase' ≠ .running peer loop := by
  cases phase with
  | awaitRequest =>
    simp only [received] at hs
    split at hs <;> cases hs <;> exact ⟨rfl, fun _ _ => by simp⟩
  | awaitNotification peer =>
    simp only [received] at hs
    split at hs <;> cases hs <;> exact ⟨rfl, fun _ _ => by simp⟩
  | _ => cases hs

theorem ServerPhase.loop_of_handled {phase phase' : ServerPhase L E}
    {result : Except ErrorData (ServerResult L)} (hs : phase.handled result = some phase') :
    phase'.loop = phase.loop ∧ ∀ peer loop, phase' ≠ .running peer loop := by
  cases phase with
  | handling request id peer =>
    simp only [handled] at hs
    split at hs
    · split at hs <;> cases hs <;> exact ⟨rfl, fun _ _ => by simp⟩
    · cases hs
      exact ⟨rfl, fun _ _ => by simp⟩
    · cases hs
      exact ⟨rfl, fun _ _ => by simp⟩
  | _ => cases hs

/-- A side that has closed is one whose loop has quit. -/
theorem ServerPhase.hasClosed_eq {phase : ServerPhase L E} (h : ∀ error, phase ≠ .failed error) :
    phase.hasClosed = phase.loop.quit.isSome := by
  cases phase with
  | failed error => exact absurd rfl (h error)
  | _ => rfl

theorem ClientPhase.hasClosed_eq {phase : ClientPhase L E} (h : ∀ error, phase ≠ .failed error) :
    phase.hasClosed = phase.loop.quit.isSome := by
  cases phase with
  | failed error => exact absurd rfl (h error)
  | _ => rfl

theorem Agreed.not_failed (h : Agreed P.getInfo info s) :
    (∀ error, s.client ≠ .failed error) ∧ ∀ error, s.server ≠ .failed error := by
  refine ⟨fun error hfailed => ?_, fun error hfailed => ?_⟩
  · have hclient := h.client
    rw [hfailed] at hclient
    exact hclient
  · have hserver := h.server
    rw [hfailed] at hserver
    exact hserver

/-- A client that runs takes what its loop takes. -/
theorem clientReceives_running {peer : Peer (ServerInfo L)} {loop : Serve (roleClient L) E}
    (hphase : s.client = .running peer loop) (hs : Connection.step P s .clientReceives = some s') :
    ∃ loop' toClient, takes loop s.toClient s.server.hasClosed = some (loop', toClient) ∧
      s'.client = .running peer loop' ∧ s'.server = s.server ∧ s'.toServer = s.toServer ∧
      s'.toClient = toClient := by
  simp only [Connection.step] at hs
  split at hs
  · next message toClient hqueue =>
    obtain ⟨client, htakes, rfl⟩ := Option.map_eq_some_iff.mp hs
    rw [hphase] at htakes
    obtain ⟨loop', hloop, rfl⟩ := Option.map_eq_some_iff.mp htakes
    refine ⟨loop', toClient, ?_, rfl, rfl, rfl, rfl⟩
    rw [hqueue]
    exact Option.map_eq_some_iff.mpr ⟨loop', hloop, rfl⟩
  · next hqueue =>
    obtain ⟨hclosed, hs⟩ := Option.ite_none_right_eq_some.mp hs
    obtain ⟨client, htakes, rfl⟩ := Option.map_eq_some_iff.mp hs
    rw [hphase] at htakes
    obtain ⟨loop', hloop, rfl⟩ := Option.map_eq_some_iff.mp htakes
    refine ⟨loop', [], ?_, rfl, rfl, rfl, hqueue⟩
    rw [hqueue, takes, if_pos hclosed]
    exact Option.map_eq_some_iff.mpr ⟨loop', hloop, rfl⟩

/-- A client that does not run goes on with its handshake. -/
theorem clientReceives_handshake (hruns : ∀ peer loop, s.client ≠ .running peer loop)
    (hs : Connection.step P s .clientReceives = some s') :
    (∃ message, s.client.received message = some s'.client) ∧ s'.server = s.server ∧
      s'.toServer = s.toServer := by
  have htakes : ∀ message, s.client.takes message = s.client.received message := by
    intro message
    cases hphase : s.client with
    | running peer loop => exact absurd hphase (hruns peer loop)
    | _ => rfl
  simp only [Connection.step, htakes] at hs
  split at hs
  · obtain ⟨client, hreceived, rfl⟩ := Option.map_eq_some_iff.mp hs
    exact ⟨⟨_, hreceived⟩, rfl, rfl⟩
  · obtain ⟨-, hs⟩ := Option.ite_none_right_eq_some.mp hs
    obtain ⟨client, hreceived, rfl⟩ := Option.map_eq_some_iff.mp hs
    exact ⟨⟨_, hreceived⟩, rfl, rfl⟩

theorem Mirrors.clientReceives (hf : Mirrors s t) (h : Agreed P.getInfo info s)
    (hs : Connection.step P s .clientReceives = some s') :
    Mirrors s' t ∨ ∃ t', t.step .nearReceives = some t' ∧ Mirrors s' t' := by
  by_cases hruns : ∃ peer loop, s.client = .running peer loop
  · obtain ⟨peer, loop, hphase⟩ := hruns
    obtain ⟨loop', toClient, htakes, hclient, hserver, htoServer, htoClient⟩ :=
      clientReceives_running hphase hs
    have hnear : t.near = loop := by rw [hf.near, hphase]; rfl
    have hclosed : t.far.quit.isSome = s.server.hasClosed := by
      rw [hf.far, ServerPhase.hasClosed_eq h.not_failed.2]
    refine .inr ⟨{ t with near := loop', toNear := toClient }, ?_, ?_⟩
    · refine Option.map_eq_some_iff.mpr ⟨(loop', toClient), ?_, rfl⟩
      rw [hnear, hf.toNear peer loop hphase, hclosed]
      exact htakes
    · refine ⟨?_, hf.far.trans (by rw [hserver]), fun peer loop hruns => ?_,
        fun _ _ _ => htoClient.symm⟩
      · rw [hclient]
        rfl
      · rw [htoServer]
        rw [hserver] at hruns
        exact hf.toFar peer loop hruns
  · obtain ⟨⟨message, hreceived⟩, hserver, htoServer⟩ :=
      clientReceives_handshake (fun peer loop hphase => hruns ⟨peer, loop, hphase⟩) hs
    obtain ⟨hloop, hnot⟩ := ClientPhase.loop_of_received hreceived
    refine .inl (hf.quiet hloop (by rw [hserver]) (fun peer loop hphase => ?_)
      fun peer loop hphase => absurd hphase (hnot peer loop))
    rw [hserver] at hphase
    exact ⟨⟨peer, loop, hphase⟩, htoServer⟩

/-- A server that runs takes what its loop takes. -/
theorem serverReceives_running {peer : Peer (ClientInfo L)} {loop : Serve (roleServer L) E}
    (hphase : s.server = .running peer loop) (hs : Connection.step P s .serverReceives = some s') :
    ∃ loop' toServer, takes loop s.toServer s.client.hasClosed = some (loop', toServer) ∧
      s'.server = .running peer loop' ∧ s'.client = s.client ∧ s'.toClient = s.toClient ∧
      s'.toServer = toServer := by
  simp only [Connection.step] at hs
  split at hs
  · next message toServer hqueue =>
    obtain ⟨server, htakes, rfl⟩ := Option.map_eq_some_iff.mp hs
    rw [hphase] at htakes
    obtain ⟨loop', hloop, rfl⟩ := Option.map_eq_some_iff.mp htakes
    refine ⟨loop', toServer, ?_, rfl, rfl, rfl, rfl⟩
    rw [hqueue]
    exact Option.map_eq_some_iff.mpr ⟨loop', hloop, rfl⟩
  · next hqueue =>
    obtain ⟨hclosed, hs⟩ := Option.ite_none_right_eq_some.mp hs
    obtain ⟨server, htakes, rfl⟩ := Option.map_eq_some_iff.mp hs
    rw [hphase] at htakes
    obtain ⟨loop', hloop, rfl⟩ := Option.map_eq_some_iff.mp htakes
    refine ⟨loop', [], ?_, rfl, rfl, rfl, hqueue⟩
    rw [hqueue, takes, if_pos hclosed]
    exact Option.map_eq_some_iff.mpr ⟨loop', hloop, rfl⟩

/-- A server that does not run goes on with its handshake. -/
theorem serverReceives_handshake (hruns : ∀ peer loop, s.server ≠ .running peer loop)
    (hs : Connection.step P s .serverReceives = some s') :
    (∃ message, s.server.received message = some s'.server) ∧ s'.client = s.client ∧
      s'.toClient = s.toClient := by
  have htakes : ∀ message, s.server.takes message = s.server.received message := by
    intro message
    cases hphase : s.server with
    | running peer loop => exact absurd hphase (hruns peer loop)
    | _ => rfl
  simp only [Connection.step, htakes] at hs
  split at hs
  · obtain ⟨server, hreceived, rfl⟩ := Option.map_eq_some_iff.mp hs
    exact ⟨⟨_, hreceived⟩, rfl, rfl⟩
  · obtain ⟨-, hs⟩ := Option.ite_none_right_eq_some.mp hs
    obtain ⟨server, hreceived, rfl⟩ := Option.map_eq_some_iff.mp hs
    exact ⟨⟨_, hreceived⟩, rfl, rfl⟩

theorem Mirrors.serverReceives (hf : Mirrors s t) (h : Agreed P.getInfo info s)
    (hs : Connection.step P s .serverReceives = some s') :
    Mirrors s' t ∨ ∃ t', t.step .farReceives = some t' ∧ Mirrors s' t' := by
  by_cases hruns : ∃ peer loop, s.server = .running peer loop
  · obtain ⟨peer, loop, hphase⟩ := hruns
    obtain ⟨loop', toServer, htakes, hserver, hclient, htoClient, htoServer⟩ :=
      serverReceives_running hphase hs
    have hfar : t.far = loop := by rw [hf.far, hphase]; rfl
    have hclosed : t.near.quit.isSome = s.client.hasClosed := by
      rw [hf.near, ClientPhase.hasClosed_eq h.not_failed.1]
    refine .inr ⟨{ t with far := loop', toFar := toServer }, ?_, ?_⟩
    · refine Option.map_eq_some_iff.mpr ⟨(loop', toServer), ?_, rfl⟩
      rw [hfar, hf.toFar peer loop hphase, hclosed]
      exact htakes
    · refine ⟨hf.near.trans (by rw [hclient]), ?_, fun _ _ _ => htoServer.symm,
        fun peer loop hruns => ?_⟩
      · rw [hserver]
        rfl
      · rw [htoClient]
        rw [hclient] at hruns
        exact hf.toNear peer loop hruns
  · obtain ⟨⟨message, hreceived⟩, hclient, htoClient⟩ :=
      serverReceives_handshake (fun peer loop hphase => hruns ⟨peer, loop, hphase⟩) hs
    obtain ⟨hloop, hnot⟩ := ServerPhase.loop_of_received hreceived
    refine .inl (hf.quiet (by rw [hclient]) hloop
      (fun peer loop hphase => absurd hphase (hnot peer loop)) fun peer loop hphase => ?_)
    rw [hclient] at hphase
    exact ⟨⟨peer, loop, hphase⟩, htoClient⟩

/-- A move of the loop of the client is one of the near side. -/
theorem Mirrors.clientLoop {a : Action (roleClient L) E} (hf : Mirrors s t)
    (hs : Connection.step P s (.clientLoop a) = some s') :
    ∃ t', t.step (.near a) = some t' ∧ Mirrors s' t' := by
  simp only [Connection.step] at hs
  split at hs
  · next peer loop hphase =>
    obtain ⟨hown, hs⟩ := Option.ite_none_left_eq_some.mp hs
    obtain ⟨loop', hloop, rfl⟩ := Option.map_eq_some_iff.mp hs
    have hnear : t.near = loop := by rw [hf.near, hphase]; rfl
    refine ⟨{ t with near := loop', toFar := t.toFar ++ Connection.newlyAccepted loop loop' },
      ?_, ?_⟩
    · refine Option.map_eq_some_iff.mpr
        ⟨(loop', t.toFar ++ Connection.newlyAccepted loop loop'), ?_, rfl⟩
      rw [moves, if_neg hown, hnear, hloop]
      rfl
    · refine ⟨rfl, hf.far, fun peer loop₀ hruns => ?_, fun _ _ _ => hf.toNear peer loop hphase⟩
      exact congrArg (· ++ Connection.newlyAccepted loop loop') (hf.toFar peer loop₀ hruns)
  · cases hs

/-- A move of the loop of the server is one of the far side. -/
theorem Mirrors.serverLoop {a : Action (roleServer L) E} (hf : Mirrors s t)
    (hs : Connection.step P s (.serverLoop a) = some s') :
    ∃ t', t.step (.far a) = some t' ∧ Mirrors s' t' := by
  simp only [Connection.step] at hs
  split at hs
  · next peer loop hphase =>
    obtain ⟨hown, hs⟩ := Option.ite_none_left_eq_some.mp hs
    obtain ⟨loop', hloop, rfl⟩ := Option.map_eq_some_iff.mp hs
    have hfar : t.far = loop := by rw [hf.far, hphase]; rfl
    refine ⟨{ t with far := loop', toNear := t.toNear ++ Connection.newlyAccepted loop loop' },
      ?_, ?_⟩
    · refine Option.map_eq_some_iff.mpr
        ⟨(loop', t.toNear ++ Connection.newlyAccepted loop loop'), ?_, rfl⟩
      rw [moves, if_neg hown, hfar, hloop]
      rfl
    · refine ⟨hf.near, rfl, fun _ _ _ => hf.toFar peer loop hphase, fun peer loop₀ hruns => ?_⟩
      exact congrArg (· ++ Connection.newlyAccepted loop loop') (hf.toNear peer loop₀ hruns)
  · cases hs

/-- The server cannot answer a client that runs for the first time. -/
theorem Mirrors.serverHandsOver (hf : Mirrors s t) (h : Agreed P.getInfo info s)
    (hs : Connection.step P s .serverHandsOver = some s') : Mirrors s' t := by
  obtain ⟨⟨message, server⟩, hover, rfl⟩ := Option.map_eq_some_iff.mp hs
  have hanswered : ∀ peer loop, s.client ≠ .running peer loop := by
    intro peer loop hruns
    have hlength := (h.server_answered hruns).length_le
    cases hphase : s.server with
    | initialized | refused => simp [hphase, ServerPhase.handedOver] at hlength
    | _ => simp [hphase, ServerPhase.handsOver] at hover
  refine hf.quiet rfl ?_ ?_ fun peer loop hruns => absurd hruns (hanswered peer loop)
  · cases hphase : s.server with
    | initialized | refused =>
      rw [hphase] at hover
      cases hover
      rfl
    | _ => simp [hphase, ServerPhase.handsOver] at hover
  · intro peer loop hruns
    cases hphase : s.server with
    | initialized | refused =>
      rw [hphase] at hover
      cases hover
      cases hruns
    | _ => simp [hphase, ServerPhase.handsOver] at hover

/-- What the server does between its messages starts no loop. -/
theorem Mirrors.server_quiet {server : ServerPhase L E} (hf : Mirrors s t)
    (hloop : server.loop = s.server.loop)
    (hruns : ∀ peer loop, server = .running peer loop →
      ∃ peer' loop', s.server = .running peer' loop') :
    Mirrors { s with server } t :=
  hf.quiet rfl hloop (fun peer loop hphase => ⟨hruns peer loop hphase, rfl⟩)
    fun peer loop hphase => ⟨⟨peer, loop, hphase⟩, rfl⟩

/-- A step of the connection is one of the conversation, or none. -/
theorem Mirrors.step {a : Connection.Action L E} (hf : Mirrors s t) (h : Agreed P.getInfo info s)
    (ht : Conversation.Joined 1 0 0 0 t) (hs : Connection.step P s a = some s') :
    Mirrors s' t ∨ ∃ b t', t.step b = some t' ∧ Mirrors s' t' := by
  cases a with
  | clientHandsOver => exact .inl (hf.clientHandsOver h hs)
  | clientSent => exact .inl (hf.clientSent h ht hs)
  | clientReceives => exact (hf.clientReceives h hs).imp_right fun ⟨t', hstep⟩ => ⟨_, t', hstep⟩
  | clientLoop a =>
    obtain ⟨t', hstep⟩ := hf.clientLoop hs
    exact .inr ⟨_, t', hstep⟩
  | serverHandsOver => exact .inl (hf.serverHandsOver h hs)
  | serverReceives => exact (hf.serverReceives h hs).imp_right fun ⟨t', hstep⟩ => ⟨_, t', hstep⟩
  | serverLoop a =>
    obtain ⟨t', hstep⟩ := hf.serverLoop hs
    exact .inr ⟨_, t', hstep⟩
  | clientSetsPeerInfo info' =>
    obtain ⟨client, hset, rfl⟩ := Option.map_eq_some_iff.mp hs
    refine .inl ?_
    cases hphase : s.client with
    | running peer loop =>
      rw [hphase] at hset
      cases hset
      exact hf.quiet (by rw [hphase]; rfl) rfl (fun peer loop hruns => ⟨⟨peer, loop, hruns⟩, rfl⟩)
        fun _ _ _ => ⟨⟨peer, loop, hphase⟩, rfl⟩
    | _ =>
      rw [hphase] at hset
      cases hset
  | serverSetsPeerInfo info' =>
    obtain ⟨server, hset, rfl⟩ := Option.map_eq_some_iff.mp hs
    refine .inl ?_
    cases hphase : s.server with
    | running peer loop =>
      rw [hphase] at hset
      cases hset
      exact hf.server_quiet (by rw [hphase]; rfl) fun _ _ _ => ⟨peer, loop, hphase⟩
    | handling request id peer =>
      rw [hphase] at hset
      cases hset
      exact hf.server_quiet (by rw [hphase]; rfl) fun _ _ hruns => by cases hruns
    | _ =>
      rw [hphase] at hset
      cases hset
  | serverSent =>
    obtain ⟨server, hsent, rfl⟩ := Option.map_eq_some_iff.mp hs
    refine .inl ?_
    cases hphase : s.server with
    | sendingResponse | sendingError =>
      rw [hphase] at hsent
      cases hsent
      exact hf.server_quiet (by rw [hphase]; rfl) fun _ _ hruns => by cases hruns
    | _ =>
      rw [hphase] at hsent
      cases hsent
  | serverHandled =>
    simp only [Connection.step] at hs
    split at hs
    · obtain ⟨server, hhandled, rfl⟩ := Option.map_eq_some_iff.mp hs
      obtain ⟨hloop, hnot⟩ := ServerPhase.loop_of_handled hhandled
      exact .inl (hf.server_quiet hloop fun peer loop hruns => absurd hruns (hnot peer loop))
    · cases hs
  | serverNotificationHandled =>
    obtain ⟨server, hhandled, rfl⟩ := Option.map_eq_some_iff.mp hs
    cases hphase : s.server with
    | notified peer =>
      rw [hphase] at hhandled
      cases hhandled
      exact .inl (hf.server_starts h ht hphase)
    | _ =>
      rw [hphase] at hhandled
      cases hhandled

end Steps

/-! ## Runs -/

section Runs

variable {P : Parties L} {info : ServerInfo L} {as : List (Connection.Action L E)}
  {s : Connection L E}

theorem connection_conversation (hhandler : P.handler P.getInfo = .ok info)
    (hrun : Transition.Run (Connection.step P) .start as s) :
    ∃ bs t, Transition.Run Conversation.step (.start 1 0 0 0) bs t ∧ Mirrors s t := by
  refine hrun.invariant (P := fun _ s => ∃ bs t,
    Transition.Run Conversation.step (.start 1 0 0 0) bs t ∧ Mirrors s t)
    ⟨[], _, .nil, mirrors_start⟩ ?_
  rintro as s s' a hrun ⟨bs, t, ht, hf⟩ hs
  have hagreed := agreed_of_run hhandler hrun
  rcases hf.step hagreed (Conversation.joined_of_run ht) hs with hf' | ⟨b, t', hstep, hf'⟩
  · exact ⟨bs, t, ht, hf'⟩
  · exact ⟨_, t', ht.snoc hstep, hf'⟩

/-- When both sides run, their loops and what is in flight between them are a conversation. So
each side tells its callers what the other side returned for their requests, and tells nobody
twice. -/
theorem session_answered (hhandler : P.handler P.getInfo = .ok info)
    (hrun : Transition.Run (Connection.step P) .start as s) {clientPeer : Peer (ServerInfo L)}
    {clientLoop : Serve (roleClient L) E} {serverPeer : Peer (ClientInfo L)}
    {serverLoop : Serve (roleServer L) E} (hclient : s.client = .running clientPeer clientLoop)
    (hserver : s.server = .running serverPeer serverLoop) :
    (∃ bs, Transition.Run Conversation.step (.start 1 0 0 0) bs
      (⟨clientLoop, serverLoop, s.toServer, s.toClient⟩ : Conversation (clientLink L) E)) ∧
    (clientLoop.requestCalls < 2 ^ 32 →
      (clientLoop.completions.map (·.1)).Nodup ∧
      ∀ responder result, (responder, result.mapError .mcpError) ∈ clientLoop.completions →
        Conversation.AnsweredBy (l := clientLink L) clientLoop serverLoop responder result) ∧
    (serverLoop.requestCalls < 2 ^ 32 →
      (serverLoop.completions.map (·.1)).Nodup ∧
      ∀ responder result, (responder, result.mapError .mcpError) ∈ serverLoop.completions →
        Conversation.AnsweredBy (l := (clientLink L).swap) serverLoop clientLoop responder result) := by
  obtain ⟨bs, t, ht, hf⟩ := connection_conversation hhandler hrun
  obtain rfl : t = ⟨clientLoop, serverLoop, s.toServer, s.toClient⟩ := by
    have hnear : t.near = clientLoop := by rw [hf.near, hclient]; rfl
    have hfar : t.far = serverLoop := by rw [hf.far, hserver]; rfl
    rw [← hnear, ← hfar, ← hf.toFar _ _ hserver, ← hf.toNear _ _ hclient]
  refine ⟨⟨bs, ht⟩, fun hcalls => ?_, fun hcalls => ?_⟩
  · exact ⟨Conversation.told_once ht hcalls,
      fun _ _ => Conversation.answeredBy_of_told ht hcalls⟩
  · have hswap := Conversation.run_swap ht
    exact ⟨Conversation.told_once hswap hcalls,
      fun _ _ => Conversation.answeredBy_of_told hswap hcalls⟩

end Runs

/-- The handshake, and then a call of a tool that is answered. -/
def answeredSession : List (Connection.Action plainLeaves Unit) :=
  calledRun ++ [.clientLoop (.requestQueued 0), .clientLoop .proxied, .clientLoop (.sendAccepted 0),
    .serverReceives, .serverLoop (.handlerReturns 0 (.ok (.emptyResult ⟨⟩))),
    .serverLoop (.responseQueued 0), .serverLoop .toSink, .serverLoop (.responseAccepted 0),
    .clientReceives]

theorem session_answered_answeredSession :
    ∃ (s : Connection plainLeaves Unit) (clientPeer : Peer (ServerInfo plainLeaves))
      (clientLoop : Serve (roleClient plainLeaves) Unit)
      (serverPeer : Peer (ClientInfo plainLeaves)) (serverLoop : Serve (roleServer plainLeaves) Unit),
      Transition.Run (Connection.step plainParties) .start answeredSession s ∧
      s.client = .running clientPeer clientLoop ∧ s.server = .running serverPeer serverLoop ∧
      clientLoop.completions = [(0, .ok (.emptyResult ⟨⟩))] ∧
      Conversation.AnsweredBy (l := clientLink plainLeaves) clientLoop serverLoop 0
        (.ok (.emptyResult ⟨⟩)) := by
  have hrun : ∃ s clientPeer clientLoop serverPeer serverLoop,
      Transition.Run (Connection.step plainParties) (.start : Connection plainLeaves Unit)
        answeredSession s ∧
      s.client = .running clientPeer clientLoop ∧ s.server = .running serverPeer serverLoop ∧
      clientLoop.completions = [(0, .ok (.emptyResult ⟨⟩))] ∧ clientLoop.requestCalls = 1 :=
    ⟨_, _, _, _, _, Transition.run_of_exec rfl, rfl, rfl, rfl, rfl⟩
  obtain ⟨s, clientPeer, clientLoop, serverPeer, serverLoop, hrun, hclient, hserver, hcompletions,
    hcalls⟩ := hrun
  obtain ⟨-, hclientTold, -⟩ := session_answered rfl hrun hclient hserver
  refine ⟨s, clientPeer, clientLoop, serverPeer, serverLoop, hrun, hclient, hserver, hcompletions,
    (hclientTold (by omega)).2 0 (.ok (.emptyResult ⟨⟩)) ?_⟩
  rw [hcompletions]
  exact List.mem_singleton.mpr rfl

end Rmcp.Service
