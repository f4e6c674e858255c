import Rmcp.Support.HashMap
import Rmcp.Transport.ClientSse

/-!
# The server of event streams

`SseServer`: each GET opens a session of its own, under an id that is drawn for it. The first
event of the answer is the `endpoint` event, which tells the client where to post; after it
come the messages of the service. A POST goes to the session that its query names.

The connections are numbered in the order of the GETs. `txs` maps a session id to the
connection whose service reads what is posted to it.

Results:
1. `App.before_move`, `App.before_sseHandler`: connections keep their sessions, and their
   `endpoint` events tell their own endpoints.
2. `App.sseHandler_eq_some`: every answered GET has a session of its own.
-/

namespace Rmcp

abbrev SessionId := String

inductive StatusCode
  | accepted
  | notFound
  | gone
deriving DecidableEq

/-- One answered GET. -/
structure Connection (C : Type) where
  session : SessionId
  /-- The events that were put on the answer and not read yet. -/
  body : List Sse
  /-- The answer is gone, and with it the receiver of `to_client`. -/
  bodyDropped : Bool
  /-- The posted messages that the service has not taken yet. -/
  inbox : List C
  /-- The `SseServerTransport` is gone, and with it the receiver of `from_client`. -/
  transportDropped : Bool
  /-- The task that removes the session when the answer is gone. -/
  watched : Bool
deriving DecidableEq

structure App (C : Type) where
  txs : HashMap SessionId Nat
  postPath : String
  connections : List (Connection C)
  /-- The `SseServer` is gone, so no transport can be handed out. -/
  closed : Bool

/-- The data of the `endpoint` event. -/
def announcedEndpoint (postPath : String) (session : SessionId) : String :=
  postPath ++ "?sessionId=" ++ session

def endpointEvent (postPath : String) (session : SessionId) : Sse :=
  ⟨some "endpoint", some (announcedEndpoint postPath session), none, none⟩

def messageEvent (data : String) : Sse := ⟨some "message", some data, none, none⟩

namespace App

variable {C M : Type}

def new (postPath : String) : App C := ⟨.empty, postPath, [], false⟩

/-- Change one connection. -/
def modify (app : App C) (n : Nat) (f : Connection C → Connection C) : App C :=
  { app with connections := app.connections.modify n f }

/-- `post_event_handler`. -/
def postEventHandler (app : App C) (sessionId : SessionId) (message : C) : StatusCode × App C :=
  match app.txs.get sessionId with
  | none => (.notFound, app)
  | some n =>
    match app.connections[n]? with
    | some connection =>
      if connection.transportDropped then (.gone, app)
      else (.accepted, app.modify n fun c => { c with inbox := c.inbox ++ [message] })
    | none => (.gone, app)

/-- `sse_handler`, with the id that `session_id` draws: the number of the connection if the
GET is answered with a stream. The id is stored before it turns out that the server is
closed. -/
def sseHandler (app : App C) (session : SessionId) : Option Nat × App C :=
  let n := app.connections.length
  let app := { app with txs := app.txs.insert session n }
  if app.closed then
    (none, { app with connections := app.connections ++ [⟨session, [], true, [], true, false⟩] })
  else
    (some n, { app with
      connections := app.connections ++
        [⟨session, [endpointEvent app.postPath session], false, [], false, true⟩] })

/-- What happens at the server besides the requests of the client. -/
inductive Move (M : Type)
  /-- The GET of another client. -/
  | get (session : SessionId)
  /-- The service sends a message on its transport. -/
  | send (n : Nat) (item : M)
  /-- The service takes a message from its transport. -/
  | next (n : Nat)
  | dropTransport (n : Nat)
  | dropBody (n : Nat)
  /-- A task that waits for the answer to go away, or one that `poll_close` has spawned. -/
  | remove (n : Nat)
  | close

/-- What the service sends is put on the stream, unless it does not encode: that ends the
answer. -/
def sendOn (app : App C) (n : Nat) : Option String → App C
  | some data => app.modify n fun c => { c with body := c.body ++ [messageEvent data] }
  | none => app.modify n fun c => { c with bodyDropped := true }

def move (toJson : M → Option String) (app : App C) : Move M → Option (App C)
  | .get session => some (app.sseHandler session).2
  | .send n item => do
    let c ← app.connections[n]?
    if c.transportDropped || c.bodyDropped then none else some (app.sendOn n (toJson item))
  | .next n => some (app.modify n fun c => { c with inbox := c.inbox.tail })
  | .dropTransport n =>
    some (app.modify n fun c => { c with inbox := [], transportDropped := true })
  | .dropBody n => some (app.modify n fun c => { c with bodyDropped := true })
  | .remove n => do
    let c ← app.connections[n]?
    if c.bodyDropped && c.watched || c.transportDropped then
      some { app with txs := app.txs.remove c.session }
    else none
  | .close => some { app with closed := true }

/-- The next event of an answer, and the server without it. -/
def read (app : App C) (n : Nat) : Option (Sse × App C) := do
  let c ← app.connections[n]?
  let sse ← c.body.head?
  some (sse, app.modify n fun c => { c with body := c.body.tail })

/-! ## What a move keeps -/

/-- The session ids that were drawn. -/
def sessions (app : App C) : List SessionId := app.connections.map (·.session)

/-- What an `endpoint` event tells is the endpoint of its own connection. -/
def Announced (app : App C) : Prop :=
  ∀ c ∈ app.connections, ∀ sse ∈ c.body, sse.event = some "endpoint" →
    sse.data = some (announcedEndpoint app.postPath c.session)

/-- `app'` comes later than `app`: every connection has kept its session, and the `endpoint`
events are right if they were. -/
structure Before (app app' : App C) : Prop where
  postPath_eq : app'.postPath = app.postPath
  sessions : app.sessions <+: app'.sessions
  announced : app.Announced → app'.Announced

variable {app app' : App C}

theorem Before.refl (app : App C) : Before app app := ⟨rfl, List.prefix_refl _, id⟩

theorem Before.length_le (h : Before app app') : app.sessions.length ≤ app'.sessions.length :=
  h.sessions.length_le

theorem Before.session (h : Before app app') {n : Nat} {session : SessionId}
    (hn : app.sessions[n]? = some session) : app'.sessions[n]? = some session := by
  obtain ⟨rest, hrest⟩ := h.sessions
  obtain ⟨hlt, -⟩ := List.getElem?_eq_some_iff.mp hn
  rw [← hrest, List.getElem?_append_left hlt, hn]

/-- A change of one connection that puts no `endpoint` event on the answer. -/
theorem before_modify (app : App C) (n : Nat) {f : Connection C → Connection C}
    (hsession : ∀ c, (f c).session = c.session)
    (hbody : ∀ c, ∀ sse ∈ (f c).body, sse ∈ c.body ∨ sse.event ≠ some "endpoint") :
    Before app (app.modify n f) := by
  refine ⟨rfl, ?_, fun h c' hc' sse hsse hevent => ?_⟩
  · have hmap : (app.modify n f).sessions = app.sessions := by
      refine List.ext_getElem? fun i => ?_
      simp only [App.sessions, modify, List.getElem?_map, List.getElem?_modify]
      cases app.connections[i]? with
      | none => rfl
      | some c =>
        simp only [Option.map_some]
        split <;> simp [hsession]
    exact hmap ▸ List.prefix_refl _
  · obtain ⟨i, hi⟩ := List.mem_iff_getElem?.mp hc'
    simp only [modify, List.getElem?_modify] at hi
    obtain ⟨c, hc, rfl⟩ := Option.map_eq_some_iff.mp hi
    have hmem := List.mem_of_getElem? hc
    by_cases hn : n = i
    · simp only [hn, if_true] at hsse ⊢
      rcases hbody c sse hsse with hold | hne
      · rw [hsession]
        exact h c hmem sse hold hevent
      · exact absurd hevent hne
    · simp only [hn, if_false] at hsse ⊢
      exact h c hmem sse hsse hevent

theorem before_sseHandler (app : App C) (session : SessionId) :
    Before app (app.sseHandler session).2 := by
  unfold sseHandler
  simp only []
  split
  · refine ⟨rfl, ⟨[session], by simp [App.sessions]⟩, fun h c hc sse hsse hevent => ?_⟩
    rcases List.mem_append.mp hc with hold | hnew
    · exact h c hold sse hsse hevent
    · cases List.mem_singleton.mp hnew
      cases hsse
  · refine ⟨rfl, ⟨[session], by simp [App.sessions]⟩, fun h c hc sse hsse hevent => ?_⟩
    rcases List.mem_append.mp hc with hold | hnew
    · exact h c hold sse hsse hevent
    · cases List.mem_singleton.mp hnew
      cases List.mem_singleton.mp hsse
      rfl

/-- The new connection has the drawn session, and comes last. -/
theorem sseHandler_eq_some {session : SessionId} {n : Nat}
    (h : app.sseHandler session = (some n, app')) :
    n = app.sessions.length ∧ app'.sessions = app.sessions ++ [session] := by
  unfold sseHandler at h
  simp only [] at h
  split at h <;> cases h
  simp [App.sessions]

theorem before_postEventHandler (app : App C) (sessionId : SessionId) (message : C) :
    Before app (app.postEventHandler sessionId message).2 := by
  unfold postEventHandler
  split
  · exact .refl app
  · split
    · split
      · exact .refl app
      · exact app.before_modify _ (fun _ => rfl) fun _ _ hsse => .inl hsse
    · exact .refl app

theorem before_sendOn (app : App C) (n : Nat) (data : Option String) :
    Before app (app.sendOn n data) := by
  cases data with
  | none => exact app.before_modify n (fun _ => rfl) fun _ _ hsse => .inl hsse
  | some data =>
    refine app.before_modify n (fun _ => rfl) fun c sse hsse => ?_
    rcases List.mem_append.mp hsse with hold | hnew
    · exact .inl hold
    · cases List.mem_singleton.mp hnew
      exact .inr (by simp [messageEvent])

theorem before_move {toJson : M → Option String} {m : Move M} (h : app.move toJson m = some app') :
    Before app app' := by
  cases m with
  | get session =>
    cases h
    exact app.before_sseHandler session
  | send n item =>
    obtain ⟨c, -, h⟩ := Option.bind_eq_some_iff.mp h
    split at h <;> cases h
    exact app.before_sendOn n _
  | remove n =>
    obtain ⟨c, -, h⟩ := Option.bind_eq_some_iff.mp h
    split at h <;> cases h
    exact ⟨rfl, List.prefix_refl _, id⟩
  | close =>
    cases h
    exact ⟨rfl, List.prefix_refl _, id⟩
  | next n | dropTransport n | dropBody n =>
    cases h
    exact app.before_modify n (fun _ => rfl) fun _ _ hsse => .inl hsse

/-- What is read from an answer was on it. -/
theorem read_eq_some {n : Nat} {sse : Sse} (h : app.read n = some (sse, app')) :
    Before app app' ∧ ∃ c, app.connections[n]? = some c ∧ sse ∈ c.body := by
  obtain ⟨c, hc, h⟩ := Option.bind_eq_some_iff.mp h
  obtain ⟨sse', hsse, h⟩ := Option.bind_eq_some_iff.mp h
  cases h
  exact ⟨app.before_modify n (fun _ => rfl) fun _ _ hold => .inl (List.mem_of_mem_tail hold),
    c, hc, List.mem_of_mem_head? hsse⟩

end App

end Rmcp
