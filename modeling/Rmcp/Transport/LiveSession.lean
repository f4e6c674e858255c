import Rmcp.Transport.SseClient

/-!
# Where a reconnected client posts

The message endpoint of `SseClientTransport` is fixed when it starts. Every connection has a
session of its own, so after a reconnect the endpoint that the current connection has
announced is another one.

Results:
1. `step_client`, `step_server`: what a step does to the client and to the server.
2. `Run.fixed`: the message endpoint is the one that was fixed at the start, and the
   connection of a client that has reconnected came later.
3. `posts_to_announced_iff`: a message that is sent after a reconnect is posted to the endpoint
   of the current connection only if that endpoint is configured.
4. `posts_to_dead_session`: such a message is refused, as the old session is gone.
-/

namespace Rmcp.SsePair

variable {P : SseSetup}

/-! ## What a step does -/

/-- What a step does to the client, and the reconnects that it adds. -/
inductive ClientStep (s s' : State P) : List Nat → Prop
  | same : s'.client = s.client → ClientStep s s' []
  | failed {e : SseTransportError} : s'.client = .failed e → ClientStep s s' []
  | established {sseEndpoint : P.http.Uri} {n : Nat} {session : SessionId} :
      s.client = .connecting sseEndpoint → n = s.server.sessions.length →
      s'.server.sessions = s.server.sessions ++ [session] →
      s'.client = P.established sseEndpoint n → ClientStep s s' []
  | waited {sseEndpoint : P.http.Uri} {n : Nat} {c : Connection P.ClientMessage} {sse : Sse} :
      s.client = .awaitingEndpoint sseEndpoint n → s.server.connections[n]? = some c →
      sse ∈ c.body → s'.client = P.waitEndpoint sseEndpoint n sse → ClientStep s s' []
  | goesOn {t t' : SseClientTransport P.http.Uri} :
      s.client = .running t → s'.client = .running t' →
      t'.messageEndpoint = t.messageEndpoint →
      (∀ n, t'.connection = some n → t.connection = some n) → ClientStep s s' []
  | reconnected {t t' : SseClientTransport P.http.Uri} :
      s.client = .running t → s'.client = .running t' →
      t'.messageEndpoint = t.messageEndpoint →
      t'.connection = some s.server.sessions.length → ClientStep s s' [s.server.sessions.length]

theorem advance_eq_some {t t' : SseClientTransport P.http.Uri}
    {awaited : Awaited Nat SseTransportError} (h : P.advance t awaited = some t') :
    t'.messageEndpoint = t.messageEndpoint ∧ ∀ n, t'.connection = some n →
      t.connection = some n ∨ awaited = .retried (.ok n) := by
  obtain ⟨stream, hstream, h⟩ := Option.bind_eq_some_iff.mp h
  obtain ⟨⟨stream', polled⟩, hpoll, h⟩ := Option.bind_eq_some_iff.mp h
  cases h
  refine ⟨rfl, fun n hn => ?_⟩
  rcases SseAutoReconnectStream.connected_pollNext hpoll hn with hold | ⟨-, hnew⟩
  · exact .inl (by simp [SseClientTransport.connection, hstream, hold])
  · exact .inr hnew

/-- An attempt that succeeds connects the transport. -/
theorem connection_advance {t t' : SseClientTransport P.http.Uri} {n : Nat}
    (h : P.advance t (.retried (.ok n)) = some t') : t'.connection = some n := by
  obtain ⟨stream, -, h⟩ := Option.bind_eq_some_iff.mp h
  obtain ⟨⟨stream', polled⟩, hpoll, h⟩ := Option.bind_eq_some_iff.mp h
  cases h
  exact SseAutoReconnectStream.pollNext_retried hpoll

theorem awaited_eq_some {s s' : State P} {server : App P.ClientMessage}
    {awaited : Awaited Nat SseTransportError} (h : s.awaited server awaited = some s') :
    ∃ t t', s.client = .running t ∧ P.advance t awaited = some t' ∧
      s' = { s with server, client := .running t' } := by
  unfold State.awaited at h
  split at h
  · next t ht =>
    obtain ⟨t', hadvance, rfl⟩ := Option.map_eq_some_iff.mp h
    exact ⟨t, t', ht, hadvance, rfl⟩
  · cases h

/-- A turn that connects the stream to nothing new. -/
theorem clientStep_awaited {s s' : State P} {server : App P.ClientMessage}
    {awaited : Awaited Nat SseTransportError} (h : s.awaited server awaited = some s')
    (hne : ∀ n, awaited ≠ .retried (.ok n)) : ClientStep s s' [] := by
  obtain ⟨t, t', ht, hadvance, rfl⟩ := awaited_eq_some h
  obtain ⟨hendpoint, hconnection⟩ := advance_eq_some hadvance
  exact .goesOn ht rfl hendpoint fun n hn => (hconnection n hn).resolve_right (hne n)

theorem clientStep_getAnswered {s s' : State P} {session : SessionId}
    (h : step s (.getAnswered session) = some s') :
    ClientStep s s' (s.reconnects (.getAnswered session)) := by
  unfold step at h
  cases hanswer : s.server.sseHandler session with
  | mk stream server =>
    simp only [hanswer] at h
    split at h
    · next sseEndpoint n hclient =>
      cases h
      obtain ⟨rfl, hsessions⟩ := App.sseHandler_eq_some hanswer
      simp only [State.reconnects, hclient]
      exact .established hclient rfl hsessions rfl
    · next hclient =>
      cases h
      simp only [State.reconnects, hclient]
      exact .failed rfl
    · next n _ =>
      obtain ⟨t, t', ht, hadvance, rfl⟩ := awaited_eq_some h
      obtain ⟨rfl, -⟩ := App.sseHandler_eq_some hanswer
      simp only [State.reconnects, ht, hanswer, Option.toList_some]
      exact .reconnected ht rfl (advance_eq_some hadvance).1 (connection_advance hadvance)
    · obtain ⟨t, t', ht, -, -⟩ := awaited_eq_some h
      simp only [State.reconnects, ht, hanswer, Option.toList_none]
      exact clientStep_awaited h fun _ heq => by cases heq

theorem step_client {s s' : State P} {a : Action P} (h : step s a = some s') :
    ClientStep s s' (s.reconnects a) := by
  cases a with
  | server move =>
    obtain ⟨server, -, rfl⟩ := Option.map_eq_some_iff.mp h
    exact .same rfl
  | getAnswered session => exact clientStep_getAnswered h
  | getFails =>
    unfold step at h
    simp only [] at h
    split at h
    · cases h
      exact .failed rfl
    · exact clientStep_awaited h fun _ heq => by cases heq
  | reads =>
    unfold step at h
    simp only [] at h
    split at h
    · next sseEndpoint n hclient =>
      obtain ⟨⟨sse, server⟩, hread, h⟩ := Option.bind_eq_some_iff.mp h
      cases h
      obtain ⟨-, c, hc, hsse⟩ := App.read_eq_some hread
      exact .waited hclient hc hsse rfl
    · obtain ⟨n, -, h⟩ := Option.bind_eq_some_iff.mp h
      obtain ⟨⟨sse, server⟩, -, h⟩ := Option.bind_eq_some_iff.mp h
      exact clientStep_awaited h fun _ heq => by cases heq
    · cases h
  | streamFails | streamEnds =>
    unfold step at h
    simp only [] at h
    split at h
    · cases h
      exact .failed rfl
    · exact clientStep_awaited h fun _ heq => by cases heq
  | slept => exact clientStep_awaited h fun _ heq => by cases heq
  | sends item =>
    unfold step at h
    simp only [] at h
    split at h <;> cases h
    exact .same rfl
  | closes =>
    unfold step at h
    simp only [] at h
    split at h
    · next t ht =>
      cases h
      exact .goesOn ht rfl rfl fun _ hn => by cases hn
    · cases h
  | postArrives i =>
    obtain ⟨⟨uri, message⟩, -, h⟩ := Option.bind_eq_some_iff.mp h
    obtain ⟨session, -, h⟩ := Option.bind_eq_some_iff.mp h
    cases h
    exact .same rfl
  | postFails i =>
    cases h
    exact .same rfl

theorem before_awaited {s s' : State P} {server : App P.ClientMessage}
    {awaited : Awaited Nat SseTransportError} (hbefore : s.server.Before server)
    (h : s.awaited server awaited = some s') : s.server.Before s'.server := by
  obtain ⟨t, t', -, -, rfl⟩ := awaited_eq_some h
  exact hbefore

theorem step_server {s s' : State P} {a : Action P} (h : step s a = some s') :
    s.server.Before s'.server := by
  cases a with
  | server move =>
    obtain ⟨server, hmove, rfl⟩ := Option.map_eq_some_iff.mp h
    exact App.before_move hmove
  | getAnswered session =>
    have hbefore := s.server.before_sseHandler session
    unfold step at h
    simp only [] at h
    split at h
    · cases h
      exact hbefore
    · cases h
      exact hbefore
    · exact before_awaited hbefore h
    · exact before_awaited hbefore h
  | getFails | streamFails | streamEnds =>
    unfold step at h
    simp only [] at h
    split at h
    · cases h
      exact .refl _
    · exact before_awaited (.refl _) h
  | reads =>
    unfold step at h
    simp only [] at h
    split at h
    · obtain ⟨⟨sse, server⟩, hread, h⟩ := Option.bind_eq_some_iff.mp h
      cases h
      exact (App.read_eq_some hread).1
    · obtain ⟨n, -, h⟩ := Option.bind_eq_some_iff.mp h
      obtain ⟨⟨sse, server⟩, hread, h⟩ := Option.bind_eq_some_iff.mp h
      exact before_awaited (App.read_eq_some hread).1 h
    · cases h
  | slept => exact before_awaited (.refl _) h
  | sends item | closes =>
    unfold step at h
    simp only [] at h
    split at h <;> cases h
    exact .refl _
  | postArrives i =>
    obtain ⟨⟨uri, message⟩, -, h⟩ := Option.bind_eq_some_iff.mp h
    obtain ⟨session, -, h⟩ := Option.bind_eq_some_iff.mp h
    cases h
    exact s.server.before_postEventHandler session message
  | postFails i =>
    cases h
    exact .refl _

/-! ## The endpoint of a run -/

/-- The text that the message endpoint is made of, when the first connection has `session`. -/
def fixedText (P : SseSetup) (session : SessionId) : String :=
  P.config.useMessageEndpoint.getD (announcedEndpoint P.postPath session)

/-- The client is where it should be, after the reconnects `log`. -/
def ClientOk (log : List Nat) (s : State P) : Prop :=
  match s.client with
  | .connecting sseEndpoint => P.http.parse P.config.sseEndpoint = some sseEndpoint ∧ log = []
  | .awaitingEndpoint sseEndpoint n =>
    P.http.parse P.config.sseEndpoint = some sseEndpoint ∧ log = [] ∧
      P.config.useMessageEndpoint = none ∧ n < s.server.sessions.length
  | .running t =>
    ∃ first session, s.server.sessions[first]? = some session ∧
      resolve P (fixedText P session) = some t.messageEndpoint ∧
      ∀ n, t.connection = some n → (log = [] ∧ n = first) ∨ first < n
  | .failed _ => True

structure Fixed (log : List Nat) (s : State P) : Prop where
  postPath_eq : s.server.postPath = P.postPath
  announced : s.server.Announced
  client : ClientOk log s

theorem ClientOk.of_eq {log : List Nat} {s s' : State P} (h : ClientOk log s)
    (hserver : s.server.Before s'.server) (hclient : s'.client = s.client) : ClientOk log s' := by
  unfold ClientOk at h ⊢
  rw [hclient]
  cases hs : s.client with
  | connecting sseEndpoint =>
    simp only [hs] at h ⊢
    exact h
  | awaitingEndpoint sseEndpoint n =>
    simp only [hs] at h ⊢
    obtain ⟨hsse, hlog, huse, hn⟩ := h
    exact ⟨hsse, hlog, huse, Nat.lt_of_lt_of_le hn hserver.length_le⟩
  | running t =>
    simp only [hs] at h ⊢
    obtain ⟨first, session, hfirst, hresolve, hconnection⟩ := h
    exact ⟨first, session, hserver.session hfirst, hresolve, hconnection⟩
  | failed e => trivial

/-- The start ends with the message endpoint of the text it is given. -/
theorem clientOk_finish {s : State P} {sseEndpoint : P.http.Uri} {n : Nat} {session : SessionId}
    (hsse : P.http.parse P.config.sseEndpoint = some sseEndpoint)
    (hsession : s.server.sessions[n]? = some session)
    (hclient : s.client = P.finish sseEndpoint n (fixedText P session)) : ClientOk [] s := by
  unfold ClientOk
  rw [hclient]
  unfold SseSetup.finish
  cases hparse : P.http.parse (fixedText P session) with
  | none => trivial
  | some messageEndpoint =>
    simp only []
    cases huri : P.messageUri sseEndpoint messageEndpoint with
    | none => trivial
    | some uri =>
      refine ⟨n, session, hsession, ?_, fun n' hn' => .inl ⟨trivial, ?_⟩⟩
      · simp [resolve, hsse, hparse, huri]
      · exact (Option.some.inj hn').symm

/-- One step keeps the endpoint, and a reconnect leads to a later connection. -/
theorem Fixed.step {log entries : List Nat} {s s' : State P} (h : Fixed log s)
    (hserver : s.server.Before s'.server) (hclient : ClientStep s s' entries) :
    Fixed (log ++ entries) s' := by
  refine ⟨hserver.postPath_eq.trans h.postPath_eq, hserver.announced h.announced, ?_⟩
  have hold := h.client
  cases hclient with
  | same hsame =>
    rw [List.append_nil]
    exact hold.of_eq hserver hsame
  | failed hfailed =>
    unfold ClientOk
    rw [hfailed]
    trivial
  | @established sseEndpoint n session hconnecting hn hsessions hestablished =>
    simp only [ClientOk, hconnecting] at hold
    obtain ⟨hsse, rfl⟩ := hold
    have hsession : s'.server.sessions[n]? = some session := by simp [hsessions, hn]
    cases huse : P.config.useMessageEndpoint with
    | some text =>
      refine clientOk_finish hsse hsession ?_
      simp [hestablished, SseSetup.established, fixedText, huse]
    | none =>
      simp only [ClientOk, hestablished, SseSetup.established, huse]
      exact ⟨hsse, rfl, trivial, by simp [hsessions, hn]⟩
  | @waited sseEndpoint n c sse hawaiting hc hsse hwaited =>
    simp only [ClientOk, hawaiting] at hold
    obtain ⟨hparse, rfl, huse, hn⟩ := hold
    by_cases hevent : sse.event = some "endpoint"
    · have hsession : s.server.sessions[n]? = some c.session := by simp [App.sessions, hc]
      have hdata := h.announced c (List.mem_of_getElem? hc) sse hsse hevent
      refine clientOk_finish hparse (hserver.session hsession) ?_
      simp [hwaited, SseSetup.waitEndpoint, hevent, hdata, fixedText, huse, h.postPath_eq]
    · simp only [ClientOk, hwaited, SseSetup.waitEndpoint, hevent, if_false]
      exact ⟨hparse, rfl, huse, Nat.lt_of_lt_of_le hn hserver.length_le⟩
  | goesOn ht ht' hendpoint hconnection =>
    simp only [ClientOk, ht] at hold
    obtain ⟨first, session, hfirst, hresolve, hlinks⟩ := hold
    simp only [ClientOk, ht', List.append_nil]
    exact ⟨first, session, hserver.session hfirst, hendpoint ▸ hresolve,
      fun n hn => hlinks n (hconnection n hn)⟩
  | reconnected ht ht' hendpoint hconnection =>
    simp only [ClientOk, ht] at hold
    obtain ⟨first, session, hfirst, hresolve, -⟩ := hold
    simp only [ClientOk, ht']
    refine ⟨first, session, hserver.session hfirst, hendpoint ▸ hresolve,
      fun n hn => .inr ?_⟩
    -- the new connection comes after all that there were
    rw [hconnection] at hn
    cases hn
    exact (List.getElem?_eq_some_iff.mp hfirst).1

theorem fixed_init : Fixed [] (init P) := by
  refine ⟨rfl, ?_, ?_⟩
  · rintro c ⟨⟩
  simp only [ClientOk, init, SseSetup.start]
  cases hparse : P.http.parse P.config.sseEndpoint with
  | none => trivial
  | some sseEndpoint => exact ⟨rfl, trivial⟩

/-- The endpoint is fixed in every run. -/
theorem Run.fixed {as : List (Action P)} {s : State P} (hrun : Run P as s) :
    Fixed (reconnects as) s := by
  refine Transition.Run.invariant (P := fun as s => Fixed (reconnects as) s) hrun fixed_init ?_
  intro as s s' a hrun h hstep
  rw [reconnects, hrun.observe_concat hstep]
  exact h.step (step_server hstep) (step_client hstep)

/-! ## The endpoint of the current connection -/

theorem resolve_eq_some {text : String} {uri : P.http.Uri} (h : resolve P text = some uri) :
    ∃ sseEndpoint messageEndpoint, P.http.parse P.config.sseEndpoint = some sseEndpoint ∧
      P.http.parse text = some messageEndpoint ∧
      P.messageUri sseEndpoint messageEndpoint = some uri := by
  obtain ⟨sseEndpoint, hsse, h⟩ := Option.bind_eq_some_iff.mp h
  obtain ⟨messageEndpoint, hparse, h⟩ := Option.bind_eq_some_iff.mp h
  exact ⟨sseEndpoint, messageEndpoint, hsse, hparse, h⟩

theorem pathOf_self (laws : P.http.Laws) {endpoint : String} (hpath : pathWithQuery endpoint) :
    P.http.pathOf endpoint = some endpoint := by
  obtain ⟨u, q, hparse, hq, hstr⟩ := laws.parse_path endpoint hpath
  simp [HttpUri.pathOf, hparse, hq, hstr]

/-- Two texts give the same URI exactly when they have the same path and query. -/
theorem resolve_eq_iff (laws : P.http.Laws) {text endpoint : String} {uri : P.http.Uri}
    (hpath : pathWithQuery endpoint) (htext : resolve P text = some uri) :
    resolve P endpoint = some uri ↔ P.http.pathOf text = some endpoint := by
  obtain ⟨sseEndpoint, messageEndpoint, hsse, hparse, huri⟩ := resolve_eq_some htext
  obtain ⟨announced, q, hannounced, hq, rfl⟩ := laws.parse_path endpoint hpath
  constructor
  · intro h
    obtain ⟨sseEndpoint', announced', hsse', hannounced', huri'⟩ := resolve_eq_some h
    cases hannounced.symm.trans hannounced'
    have hkept := (laws.fromParts_iff _ _ q huri' hpath).mpr hq
    have hsame := (laws.fromParts_iff _ _ q huri hpath).mp hkept
    simp only [] at hsame
    simp [HttpUri.pathOf, hparse, hsame]
  · intro h
    obtain ⟨q', hq', hstr⟩ := Option.map_eq_some_iff.mp h
    obtain rfl := laws.asStr_inj q q' hpath hstr.symm
    simp only [hparse, Option.bind_some] at hq'
    have hsame : P.messageUri sseEndpoint announced = P.messageUri sseEndpoint messageEndpoint := by
      simp only [SseSetup.messageUri, hq, hq']
    simp [resolve, hsse, hannounced, hsame, huri]

theorem announcedEndpoint_inj {postPath : String} {session session' : SessionId}
    (h : announcedEndpoint postPath session = announcedEndpoint postPath session') :
    session = session' :=
  (String.append_right_inj _).mp h

theorem announced_eq_some {s : State P} {endpoint : String} (h : s.announced = some endpoint) :
    ∃ t n session, s.client = .running t ∧ t.connection = some n ∧
      s.server.sessions[n]? = some session ∧
      endpoint = announcedEndpoint s.server.postPath session := by
  unfold State.announced at h
  split at h
  · next t ht =>
    obtain ⟨n, hn, h⟩ := Option.bind_eq_some_iff.mp h
    obtain ⟨session, hsession, h⟩ := Option.bind_eq_some_iff.mp h
    exact ⟨t, n, session, ht, hn, hsession, (Option.some.inj h).symm⟩
  · cases h

/-- A message that is sent after a reconnect is posted to the endpoint that the current
connection has announced exactly when this endpoint is configured. The session ids that were
drawn are different, and make a path with a query. -/
theorem posts_to_announced_iff (laws : P.http.Laws) {as : List (Action P)} {s s' : State P}
    (hrun : Run P as s) (hfresh : s.server.sessions.Nodup)
    (hpath : ∀ session ∈ s.server.sessions, pathWithQuery (announcedEndpoint P.postPath session))
    (hreconnected : reconnects as ≠ []) {endpoint : String}
    (hendpoint : s.announced = some endpoint) {item : P.ClientMessage}
    (hsends : step s (.sends item) = some s') :
    (∃ uri, s'.posts = s.posts ++ [(uri, item)] ∧ resolve P endpoint = some uri) ↔
      ∃ text, P.config.useMessageEndpoint = some text ∧ P.http.pathOf text = some endpoint := by
  have hfixed := hrun.fixed
  obtain ⟨t, n, session, ht, hn, hsession, rfl⟩ := announced_eq_some hendpoint
  rw [hfixed.postPath_eq]
  have hclient := hfixed.client
  simp only [ClientOk, ht] at hclient
  obtain ⟨first, session₀, hfirst, hresolve, hlater⟩ := hclient
  have hlt : first < n := (hlater n hn).resolve_left fun h => hreconnected h.1
  have hvalid := hpath session (List.mem_of_getElem? hsession)
  have hposts : (∃ uri, s'.posts = s.posts ++ [(uri, item)] ∧
      resolve P (announcedEndpoint P.postPath session) = some uri) ↔
      resolve P (announcedEndpoint P.postPath session) = some t.messageEndpoint := by
    simp only [step, ht, SseSetup.send] at hsends
    cases hsends
    simp
  rw [hposts, resolve_eq_iff laws hvalid hresolve]
  cases huse : P.config.useMessageEndpoint with
  | some text => simp [fixedText, huse]
  | none =>
    -- the first connection has announced another endpoint
    have hne : session₀ ≠ session := by
      intro heq
      have hindex := (List.getElem?_inj (List.getElem?_eq_some_iff.mp hfirst).1 hfresh).mp
        (hfirst.trans (heq ▸ hsession.symm))
      omega
    have hself := pathOf_self laws (hpath session₀ (List.mem_of_getElem? hfirst))
    simp only [fixedText, huse, Option.getD_none, hself, Option.some.injEq]
    constructor
    · intro h
      exact absurd (announcedEndpoint_inj h) hne
    · rintro ⟨text, htext, -⟩
      cases htext

/-! ## A client that posts to a session that is gone -/

/-- URIs that are either a path with a query or the address of the stream. -/
abbrev localHttp : HttpUri where
  Uri := UriParts String String String
  Scheme := String
  Authority := String
  PathAndQuery := String
  parse s :=
    if pathWithQuery s then some ⟨none, none, some s⟩
    else if s = "http://localhost/sse" then some ⟨some "http", some "localhost", some "/sse"⟩
    else none
  intoParts := id
  fromParts parts :=
    if parts.scheme.isSome && (parts.authority.isNone || parts.pathAndQuery.isNone) then none
    else some parts
  asStr := id

theorem localHttp_laws : localHttp.Laws where
  parse_path s hs := ⟨⟨none, none, some s⟩, s, by simp [localHttp, hs], rfl, rfl⟩
  asStr_inj _ _ _ h := h
  fromParts_iff parts u q h _ := by
    simp only [localHttp] at h
    split at h <;> cases h
    exact Iff.rfl

/-- A client and a server with the default paths. -/
abbrev localSetup : SseSetup where
  http := localHttp
  config := ⟨"http://localhost/sse", FixedInterval.default.retry, none⟩
  postPath := "/message"
  ClientMessage := String
  ServerMessage := String
  toJson := some
  fromStr := some
  sessionOf uri := uri.pathAndQuery.map fun s =>
    String.ofList (s.toList.drop (announcedEndpoint "/message" "").length)

/-- The stream fails and is connected again; the server removes the session that it had. -/
def reconnectedRun : List (Action localSetup) :=
  [.getAnswered "a", .reads, .streamFails, .getAnswered "b", .server (.dropBody 0),
    .server (.remove 0)]

theorem posts_to_announced_iff_reconnectedRun :
    ∃ s s', Run localSetup reconnectedRun s ∧ s.announced = some "/message?sessionId=b" ∧
      step s (.sends "hello") = some s' ∧
      ((∃ uri, s'.posts = s.posts ++ [(uri, "hello")] ∧
          resolve localSetup "/message?sessionId=b" = some uri) ↔
        ∃ text, localSetup.config.useMessageEndpoint = some text ∧
          localSetup.http.pathOf text = some "/message?sessionId=b") := by
  have hrun : ∃ s s', Run localSetup reconnectedRun s ∧
      s.announced = some "/message?sessionId=b" ∧ step s (.sends "hello") = some s' ∧
      s.server.sessions = ["a", "b"] :=
    ⟨_, _, Transition.run_of_exec rfl, rfl, rfl, rfl⟩
  obtain ⟨s, s', hrun, hannounced, hsends, hsessions⟩ := hrun
  refine ⟨s, s', hrun, hannounced, hsends,
    posts_to_announced_iff localHttp_laws hrun ?_ ?_ ?_ hannounced hsends⟩
  · rw [hsessions]
    decide
  · rw [hsessions]
    decide
  · decide

/-- After the reconnect the client posts to the session of its first connection, and is told
that there is none. -/
theorem posts_to_dead_session :
    ∃ s s' uri, Run localSetup reconnectedRun s ∧ reconnects reconnectedRun = [1] ∧
      s.announced = some "/message?sessionId=b" ∧ step s (.sends "hello") = some s' ∧
      s'.posts = [(uri, "hello")] ∧
      resolve localSetup "/message?sessionId=b" ≠ some uri ∧
      localSetup.sessionOf uri = some "a" ∧
      (s'.server.postEventHandler "a" "hello").1 = .notFound := by
  have hresolve : resolve localSetup "/message?sessionId=b" =
      some ⟨some "http", some "localhost", some "/message?sessionId=b"⟩ := rfl
  refine ⟨_, _, ⟨some "http", some "localhost", some "/message?sessionId=a"⟩,
    Transition.run_of_exec rfl, by decide, rfl, rfl, rfl, ?_, rfl, rfl⟩
  rw [hresolve]
  decide

end Rmcp.SsePair
