import Rmcp.Handler.Dispatch

/-!
# Calls that are served

The two loops in conversation, where each handler returns what the service of its side makes of
the request it was started for. A service may share anything with what is around it, so the value
that its answer depends on besides is chosen when the handler returns.

Results:
1. `call_served`: what a caller is told is what the service of the other side made of its request.
2. `typed_calls_answered`: what the methods of a peer return is what the methods of the handler on
   the other side returned for their params.
-/

open Rmcp.Handler

namespace Rmcp.Service

/-! ## One side -/

section OneSide

variable {R : ServiceRole} {E W : Type}

/-- A handler knows the request that it was started for. -/
structure Handler.Started (handler : Handler R) (history : List (Event R E)) : Prop where
  received : .peerMessage (.request ⟨handler.context.id, handler.request⟩) ∈ history
  metaEntry : handler.context.metaEntry = R.peerMeta handler.request
  extensions : handler.context.extensions = R.peerExtensions handler.request

theorem Event.started_of_starts? {e : Event R E} {token : Nat} {handler : Handler R}
    (h : e.starts? token = some handler) (history : List (Event R E)) :
    handler.Started (history ++ [e]) := by
  rcases e with _ | (r | _ | _ | _ | _ | _) | _ | _ <;> cases h
  exact ⟨List.mem_append_right _ List.mem_cons_self, rfl, rfl⟩

theorem Handler.Started.mono {handler : Handler R} {history : List (Event R E)}
    (h : handler.Started history) (e : Event R E) : handler.Started (history ++ [e]) :=
  ⟨List.mem_append_left _ h.received, h.metaEntry, h.extensions⟩

/-- A responder is stored with one request. -/
theorem Distinct.request_eq {history : List (Event R E)} (h : Distinct (storedRequests history))
    {request request' : R.Req} {id id' : RequestId} {responder : Nat}
    (hstored : .proxyMessage (.request request id responder) ∈ history)
    (hstored' : .proxyMessage (.request request' id' responder) ∈ history) :
    request = request' ∧ id = id' := by
  have hresponders := h.responders
  rw [storedRequests, List.map_filterMap] at hresponders
  have hsame := eq_of_nodup_filterMap hresponders hstored hstored' rfl rfl
  cases hsame
  exact ⟨rfl, rfl⟩

/-- A service: what its handler returns, by what it shares with others. -/
abbrev Serving (R : ServiceRole) (W : Type) :=
  W → R.PeerReq → RequestContext → Except ErrorData R.Resp

/-- All handlers that have returned have returned what the service made of their request. -/
structure ServedBy (serve : Serving R W) (loop : Serve R E) : Prop where
  running : ∀ handler ∈ loop.handlers, handler.Started loop.history
  returned : ∀ id result, (id, result) ∈ loop.returned → ∃ handler : Handler R,
    handler.Started loop.history ∧ handler.context.id = id ∧
      ∃ w, result = serve w handler.request handler.context

variable {serve : Serving R W} {loop loop' : Serve R E}

theorem ServedBy.start (first token : UInt32) :
    ServedBy serve (Serve.start first token : Serve R E) :=
  ⟨fun _ h => absurd h List.not_mem_nil, fun _ _ h => absurd h List.not_mem_nil⟩

/-- Handlers that leave are none that return. -/
theorem ServedBy.background (h : ServedBy serve loop) {a : Action R E}
    (hs : BackgroundStep loop a loop') (ha : ∀ i result, a ≠ .handlerReturns i result) :
    ServedBy serve loop' := by
  cases hs with
  | handlerReturns => exact absurd rfl (ha _ _)
  | handlerAborts => exact ⟨fun _ hmem => h.running _ (List.mem_of_mem_eraseIdx hmem), h.returned⟩
  | _ => exact ⟨h.running, h.returned⟩

theorem ServedBy.step (h : ServedBy serve loop) {a : Action R E} (hs : step loop a = some loop')
    (ha : ∀ i result, a ≠ .handlerReturns i result) : ServedBy serve loop' := by
  rcases background_or_loop hs with hbackground | ⟨-, -, hloop⟩
  · exact h.background (background_step hbackground) ha
  · rcases loop_turn hloop with ⟨e, s₀, htaken, rfl⟩ | ⟨reason, rfl⟩
    · have hkept : s₀.handlers = loop.handlers ∧ s₀.returned = loop.returned := by
        cases htaken <;> exact ⟨rfl, rfl⟩
      have hhistory := (s₀.turn_spec e).history_eq
      rw [htaken.kept.history_eq] at hhistory
      constructor
      · intro handler hmem
        rw [(s₀.turn_output e).handlers_eq, hkept.1] at hmem
        rw [hhistory]
        rcases List.mem_append.mp hmem with hold | hnew
        · exact (h.running handler hold).mono e
        · exact Event.started_of_starts? (Option.mem_toList.mp hnew) loop.history
      · intro id result hmem
        rw [(s₀.turn_spec e).returned_eq, hkept.2] at hmem
        obtain ⟨handler, hstarted, hanswer⟩ := h.returned id result hmem
        rw [hhistory]
        exact ⟨handler, hstarted.mono e, hanswer⟩
    · exact ⟨h.running, h.returned⟩

/-- A handler returns what the service makes of its request. -/
theorem ServedBy.returns (h : ServedBy serve loop) {i : Nat} {handler : Handler R} {w : W}
    (hi : loop.handlers[i]? = some handler)
    (hs : Service.step loop (.handlerReturns i (serve w handler.request handler.context)) =
      some loop') : ServedBy serve loop' := by
  rcases background_or_loop hs with hbackground | ⟨-, -, hloop⟩
  · cases background_step hbackground with
    | @handlerReturns _ handler' _ hi' =>
      obtain rfl : handler = handler' := Option.some.inj (hi.symm.trans hi')
      refine ⟨fun _ hmem => h.running _ (List.mem_of_mem_eraseIdx hmem), fun id result hmem => ?_⟩
      rcases List.mem_append.mp hmem with hold | hnew
      · exact h.returned id result hold
      · cases List.mem_singleton.mp hnew
        exact ⟨handler, h.running handler (List.mem_of_getElem? hi), rfl, w, rfl⟩
  · cases hloop

/-- What a method of a peer returns: what the method of the handler on the other side returned for
the params, with the id and the metadata of the call, unless the request could not be sent or has
been cancelled. -/
def Answer {α Params : Type} (m : Method R Params α) (f : HandlerMethod W Params α)
    (params : Params) (entries : Meta) (id : RequestId)
    (outcome : Except (ServiceError E) R.PeerResp) : Prop :=
  match outcome with
  | .ok _ | .error (.mcpError _) =>
    ∃ w context, m.receive outcome = (f w params context).mapError (.failed ∘ .mcpError) ∧
      context.id = id ∧ context.metaEntry = entries
  | .error (.transportSend _) | .error (.cancelled _) => True

end OneSide

/-! ## Both sides -/

/-- What serves each side of a link. -/
structure Services (l : Link) (W : Type) where
  near : Serving l.near W
  far : Serving l.far W

namespace Conversation

/-- What happens in a conversation, where the results of handlers are not chosen. -/
inductive ServedAction (l : Link) (W E : Type)
  | nearReturns (handler : Nat) (w : W)
  | farReturns (handler : Nat) (w : W)
  | other (a : Action l E)

variable {l : Link} {W E : Type} {P : Services l W}

def Action.isReturn : Action l E → Bool
  | .near (.handlerReturns _ _) | .far (.handlerReturns _ _) => true
  | _ => false

def servedStep (P : Services l W) (s : Conversation l E) :
    ServedAction l W E → Option (Conversation l E)
  | .nearReturns i w =>
    s.near.handlers[i]?.bind fun handler =>
      s.step (.near (.handlerReturns i (P.near w handler.request handler.context)))
  | .farReturns i w =>
    s.far.handlers[i]?.bind fun handler =>
      s.step (.far (.handlerReturns i (P.far w handler.request handler.context)))
  | .other a => if a.isReturn then none else s.step a

/-- Both sides are served. -/
structure Served (P : Services l W) (s : Conversation l E) : Prop where
  near : ServedBy P.near s.near
  far : ServedBy P.far s.far

theorem Served.step {s s' : Conversation l E} {a : Action l E} (h : Served P s)
    (ha : a.isReturn = false) (hs : s.step a = some s') : Served P s' := by
  cases a with
  | near a =>
    obtain ⟨⟨near, toFar⟩, hmoves, rfl⟩ := Option.map_eq_some_iff.mp hs
    refine ⟨h.near.step (moves_spec hmoves).1 ?_, h.far⟩
    rintro i result rfl
    cases ha
  | far a =>
    obtain ⟨⟨far, toNear⟩, hmoves, rfl⟩ := Option.map_eq_some_iff.mp hs
    refine ⟨h.near, h.far.step (moves_spec hmoves).1 ?_⟩
    rintro i result rfl
    cases ha
  | nearReceives =>
    obtain ⟨⟨near, toNear⟩, htakes, rfl⟩ := Option.map_eq_some_iff.mp hs
    obtain ⟨message, hstep, -⟩ := takes_spec htakes
    exact ⟨h.near.step hstep (by cases message <;> simp [Action.ofTransport]), h.far⟩
  | farReceives =>
    obtain ⟨⟨far, toFar⟩, htakes, rfl⟩ := Option.map_eq_some_iff.mp hs
    obtain ⟨message, hstep, -⟩ := takes_spec htakes
    exact ⟨h.near, h.far.step hstep (by cases message <;> simp [Action.ofTransport])⟩

/-- A step where handlers are served is a step of the conversation. -/
theorem servedStep_step {s s' : Conversation l E} {a : ServedAction l W E}
    (hs : servedStep P s a = some s') (h : Served P s) :
    (∃ b, s.step b = some s') ∧ Served P s' := by
  cases a with
  | nearReturns i w =>
    obtain ⟨handler, hi, hs⟩ := Option.bind_eq_some_iff.mp hs
    refine ⟨⟨_, hs⟩, ?_⟩
    obtain ⟨⟨near, toFar⟩, hmoves, rfl⟩ := Option.map_eq_some_iff.mp hs
    exact ⟨h.near.returns hi (moves_spec hmoves).1, h.far⟩
  | farReturns i w =>
    obtain ⟨handler, hi, hs⟩ := Option.bind_eq_some_iff.mp hs
    refine ⟨⟨_, hs⟩, ?_⟩
    obtain ⟨⟨far, toNear⟩, hmoves, rfl⟩ := Option.map_eq_some_iff.mp hs
    exact ⟨h.near, h.far.returns hi (moves_spec hmoves).1⟩
  | other a =>
    obtain ⟨ha, hs⟩ := Option.ite_none_left_eq_some.mp hs
    exact ⟨⟨a, hs⟩, h.step (by simpa using ha) hs⟩

variable {first token first' token' : UInt32} {as : List (ServedAction l W E)}
  {s : Conversation l E}

theorem served_of_run (hrun : Transition.Run (servedStep P) (start first token first' token') as s) :
    (∃ bs, Transition.Run step (start first token first' token') bs s) ∧ Served P s := by
  refine hrun.invariant (P := fun _ s =>
    (∃ bs, Transition.Run step (start first token first' token') bs s) ∧ Served P s)
    ⟨⟨[], .nil⟩, .start _ _, .start _ _⟩ ?_
  rintro as s s' a _ ⟨⟨bs, hbs⟩, h⟩ hs
  obtain ⟨⟨b, hb⟩, h'⟩ := servedStep_step hs h
  exact ⟨⟨_, hbs.snoc hb⟩, h'⟩

section Near

variable {bs : List (Action l E)} {serve : Serving l.far W}
  (hrun : Transition.Run step (start first token first' token') bs s)
  (hserved : ServedBy serve s.far) (hcalls : s.near.requestCalls < 2 ^ 32)
include hrun hserved hcalls

/-- What a caller is told is what the service of the other side made of its request, in a context
with the id and the metadata of the request. -/
theorem call_served {request : l.near.Req} {id : RequestId} {responder : Nat}
    {result : Except ErrorData l.near.PeerResp}
    (hstored : .proxyMessage (.request request id responder) ∈ s.near.history)
    (hcompleted : (responder, result.mapError .mcpError) ∈ s.near.completions) :
    ∃ w context, result = serve w request context ∧ context.id = id ∧
      context.metaEntry = l.near.getMeta request := by
  obtain ⟨request', id', hstored', hrequest, hresult⟩ := answeredBy_of_told hrun hcalls hcompleted
  -- the request that was answered is the one the caller has made
  obtain ⟨cs, hnear⟩ := (joined_of_run hrun).near
  obtain ⟨rfl, rfl⟩ := ((Runs.issued hnear).distinct hcalls).request_eq hstored hstored'
  obtain ⟨handler, hstarted, rfl, w, hserve⟩ :=
    hserved.returned id result ((hresult result).mpr rfl)
  obtain hsame : handler.request = request := (hrequest _).mp hstarted.received
  refine ⟨w, handler.context, hsame ▸ hserve, rfl, ?_⟩
  rw [hstarted.metaEntry, hsame]

theorem method_served {Params α : Type} {m : Method l.near Params α}
    {f : HandlerMethod W Params α} (hfits : Fits serve m f)
    (hmeta : ∀ entries r, l.near.getMeta (l.near.setMeta entries r) = entries) {params : Params}
    {entries : Meta} {id : RequestId} {responder : Nat}
    {outcome : Except (ServiceError E) l.near.PeerResp}
    (hstored : .proxyMessage (.request (l.near.setMeta entries (m.request params)) id responder) ∈
      s.near.history) (hcompleted : (responder, outcome) ∈ s.near.completions) :
    Answer m f params entries id outcome := by
  obtain ⟨wrap, hwrap, hserve⟩ := hfits.served
  have hreceive (w : W) (context : RequestContext) :
      m.receive (E := E) (((f w params context).map wrap).mapError .mcpError) =
        (f w params context).mapError (.failed ∘ .mcpError) := by
    cases f w params context with
    | ok a => simp [Except.map, Except.mapError, Method.receive, hwrap]
    | error e => rfl
  have hanswer : ∀ result : Except ErrorData l.near.PeerResp,
      outcome = result.mapError .mcpError → ∃ w context,
        m.receive outcome = (f w params context).mapError (.failed ∘ .mcpError) ∧
          context.id = id ∧ context.metaEntry = entries := by
    rintro result rfl
    obtain ⟨w, context, rfl, hid, hentries⟩ :=
      call_served hrun hserved hcalls hstored hcompleted
    refine ⟨w, context, ?_, hid, hentries.trans (hmeta _ _)⟩
    rw [hserve, hreceive]
  match outcome with
  | .ok r => exact hanswer (.ok r) rfl
  | .error (.mcpError e) => exact hanswer (.error e) rfl
  | .error (.transportSend _) | .error (.cancelled _) => trivial

end Near

end Conversation

/-! ## A client and a server -/

section ClientAndServer

variable {L : Leaves} {W E : Type} {first token first' token' : UInt32}

theorem getMeta_setMeta_client (entries : Meta) (r : ClientRequest L) :
    (roleClient L).getMeta ((roleClient L).setMeta entries r) = entries := by
  cases r <;> rfl

theorem getMeta_setMeta_server (entries : Meta) (r : ServerRequest L) :
    (roleServer L).getMeta ((roleServer L).setMeta entries r) = entries := by
  cases r <;> rfl

/-- The typed methods of both peers, over the loops of a client and a server: a method returns what
the method of the other side's handler returned for its params. -/
theorem typed_calls_answered (H : ServerHandler L W) (C : ClientHandler L W)
    {as : List (Conversation.ServedAction (clientLink L) W E)}
    {s : Conversation (clientLink L) E}
    (hrun : Transition.Run (Conversation.servedStep ⟨C.handleRequest, H.handleRequest⟩)
      (.start first token first' token') as s) :
    (s.near.requestCalls < 2 ^ 32 →
      ∀ {Params α : Type} (m : Method (roleClient L) Params α) (f : HandlerMethod W Params α),
        H.Serves m f →
      ∀ params entries id responder outcome,
        .proxyMessage (.request ((roleClient L).setMeta entries (m.request params)) id responder) ∈
          s.near.history →
        (responder, outcome) ∈ s.near.completions →
        Answer m f params entries id outcome) ∧
    (s.far.requestCalls < 2 ^ 32 →
      ∀ {Params α : Type} (m : Method (roleServer L) Params α) (f : HandlerMethod W Params α),
        C.Serves m f →
      ∀ params entries id responder outcome,
        .proxyMessage (.request ((roleServer L).setMeta entries (m.request params)) id responder) ∈
          s.far.history →
        (responder, outcome) ∈ s.far.completions →
        Answer m f params entries id outcome) := by
  obtain ⟨⟨bs, hbs⟩, hserved⟩ := Conversation.served_of_run hrun
  constructor
  · intro hcalls Params α m f hm params entries id responder outcome hstored hcompleted
    exact Conversation.method_served hbs hserved.far hcalls hm.spec getMeta_setMeta_client hstored
      hcompleted
  · intro hcalls Params α m f hm params entries id responder outcome hstored hcompleted
    exact Conversation.method_served (Conversation.run_swap hbs) hserved.near hcalls hm.spec
      getMeta_setMeta_server hstored hcompleted

end ClientAndServer

/-- A server with one tool, which gives what it finds. -/
def findingServer : ServerHandler plainLeaves Value where
  getInfo := ⟨⟨"2025-03-26"⟩, .object [], ⟨"server", "0.1.0"⟩, none⟩
  callTool found _ _ := .ok ⟨[found], none⟩

/-- A client that provides nothing. -/
def bareHandler : ClientHandler plainLeaves Value := {}

def findCall : CallToolRequestParam := ⟨"find", none⟩

/-- The metadata of the call: its progress token. -/
def findMeta : Meta := ⟨[("progressToken", .number (.posInt 0))]⟩

/-- The tool is called, and gives a text. -/
def foundRun : List (Conversation.ServedAction (clientLink plainLeaves) Value Unit) :=
  [.other (.near (.requestCalled (ClientPeer.callTool.request findCall) ⟨none⟩)),
    .other (.near (.requestQueued 0)), .other (.near .proxied), .other (.near (.sendAccepted 0)),
    .other .farReceives, .farReturns 0 (.string "found"), .other (.far (.responseQueued 0)),
    .other (.far .toSink), .other (.far (.responseAccepted 0)), .other .nearReceives]

theorem typed_calls_answered_foundRun :
    ∃ s : Conversation (clientLink plainLeaves) Unit,
      Transition.Run (Conversation.servedStep ⟨bareHandler.handleRequest, findingServer.handleRequest⟩)
        (.start 0 0 0 0) foundRun s ∧
      s.near.completions = [(0, .ok (.callToolResult ⟨[.string "found"], none⟩))] ∧
      Answer (E := Unit) ClientPeer.callTool findingServer.callTool findCall findMeta (.number 0)
        (.ok (.callToolResult ⟨[.string "found"], none⟩)) := by
  have hrun : ∃ s : Conversation (clientLink plainLeaves) Unit,
      Transition.Run (Conversation.servedStep ⟨bareHandler.handleRequest, findingServer.handleRequest⟩)
        (.start 0 0 0 0) foundRun s ∧ s.near.requestCalls = 1 ∧
      s.near.history.head? = some (.proxyMessage
        (.request ((roleClient plainLeaves).setMeta findMeta (ClientPeer.callTool.request findCall))
          (.number 0) 0)) ∧
      s.near.completions = [(0, .ok (.callToolResult ⟨[.string "found"], none⟩))] :=
    ⟨_, Transition.run_of_exec rfl, rfl, rfl, rfl⟩
  obtain ⟨s, hrun, hcalls, hstored, hcompletions⟩ := hrun
  refine ⟨s, hrun, hcompletions, ?_⟩
  refine (typed_calls_answered findingServer bareHandler hrun).1 (by omega) ClientPeer.callTool
    findingServer.callTool .callTool findCall findMeta (.number 0) 0 _
    (List.mem_of_head? hstored) ?_
  rw [hcompletions]
  exact List.mem_singleton.mpr rfl

end Rmcp.Service
