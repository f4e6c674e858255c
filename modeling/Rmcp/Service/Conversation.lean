import Rmcp.Service.Agreement
import Rmcp.Service.Lines
import Rmcp.Service.Passage

/-!
# Two loops in conversation

The two loops of a connection, over a transport that loses nothing and keeps the order of each
direction. A loop takes the next message of the other one, or learns that the transport is closed
when there is none left and the other one has quit. Everything else is up to each side: when
callers call, when handlers return and with what, when the transport takes a send, when a loop
quits.

The two sides are alike, so what is said of the calls of the near one holds of those of the far
one as well: `Conversation.swap` takes runs to runs.

Results:
1. `joined_of_run`: each loop runs, and what came in at one of them was accepted at the other.
2. `answered_by_peer`: what a caller is told is what the handler of the other side returned for
   its request, and it is told once.
3. `call_in_one_place`: a call that waits is at one place, on one of the two sides or between
   them.
-/

namespace Rmcp.Service

/-- The roles of two loops that talk to each other: what one of them sends, the other receives. -/
structure Link where
  near : ServiceRole
  setMeta : Meta → near.PeerReq → near.PeerReq
  extensions : near.Req → Extensions

namespace Link

abbrev far (l : Link) : ServiceRole where
  Req := l.near.PeerReq
  Resp := l.near.PeerResp
  Not := l.near.PeerNot
  PeerReq := l.near.Req
  PeerResp := l.near.Resp
  PeerNot := l.near.Not
  getMeta := l.near.peerMeta
  setMeta := l.setMeta
  peerMeta := l.near.getMeta
  peerExtensions := l.extensions
  tryIntoCancelled := l.near.peerTryIntoCancelled
  ofCancelled := l.near.peerOfCancelled
  peerTryIntoCancelled := l.near.tryIntoCancelled
  peerOfCancelled := l.near.ofCancelled

abbrev swap (l : Link) : Link := ⟨l.far, l.near.setMeta, l.near.peerExtensions⟩

end Link

section OneSide

variable {R : ServiceRole} {E : Type}

/-- A loop makes a move of its own, and the transport takes over what it takes. -/
def moves (loop : Serve R E) (out : List (TxJsonRpcMessage R)) (a : Action R E) :
    Option (Serve R E × List (TxJsonRpcMessage R)) :=
  if a.isOfTransport then none
  else (step loop a).map fun loop' => (loop', out ++ Connection.newlyAccepted loop loop')

/-- A loop takes the next message, or learns that there are no more of them. -/
def takes (loop : Serve R E) (queue : List (RxJsonRpcMessage R)) (closed : Bool) :
    Option (Serve R E × List (RxJsonRpcMessage R)) :=
  match queue with
  | message :: queue => (step loop (.received message)).map (·, queue)
  | [] => if closed then (step loop .inputClosed).map (·, []) else none

variable {loop loop' : Serve R E}

theorem moves_spec {out out' : List (TxJsonRpcMessage R)} {a : Action R E}
    (h : moves loop out a = some (loop', out')) :
    step loop a = some loop' ∧ a.received? = none ∧
      ∃ new, out' = out ++ new ∧ loop'.accepted = loop.accepted ++ new := by
  obtain ⟨hbeside, h⟩ := Option.ite_none_left_eq_some.mp h
  obtain ⟨loop', hstep, heq⟩ := Option.map_eq_some_iff.mp h
  cases heq
  refine ⟨hstep, ?_, _, rfl, (append_newlyAccepted hstep).symm⟩
  cases a with
  | received => exact absurd rfl hbeside
  | _ => rfl

theorem takes_spec {queue queue' : List (RxJsonRpcMessage R)} {closed : Bool}
    (h : takes loop queue closed = some (loop', queue')) :
    ∃ message : Option (RxJsonRpcMessage R), step loop (.ofTransport message) = some loop' ∧
      queue = message.toList ++ queue' := by
  cases queue with
  | cons message queue =>
    obtain ⟨loop', hstep, heq⟩ := Option.map_eq_some_iff.mp h
    cases heq
    exact ⟨some message, hstep, rfl⟩
  | nil =>
    obtain ⟨-, h⟩ := Option.ite_none_right_eq_some.mp h
    obtain ⟨loop', hstep, heq⟩ := Option.map_eq_some_iff.mp h
    cases heq
    exact ⟨none, hstep, rfl⟩

theorem received?_ofTransport (message : Option (RxJsonRpcMessage R)) :
    (Action.ofTransport message : Action R E).received? = message := by
  cases message <;> rfl

end OneSide

structure Conversation (l : Link) (E : Type) where
  near : Serve l.near E
  far : Serve l.far E
  -- what is in flight
  toFar : List (TxJsonRpcMessage l.near)
  toNear : List (TxJsonRpcMessage l.far)

namespace Conversation

inductive Action (l : Link) (E : Type)
  | near (a : Service.Action l.near E)
  | far (a : Service.Action l.far E)
  | nearReceives
  | farReceives

variable {l : Link} {E : Type}

/-- The counters of each side may start anywhere. -/
def start (first token first' token' : UInt32) : Conversation l E where
  near := .start first token
  far := .start first' token'
  toFar := []
  toNear := []

def step (s : Conversation l E) : Action l E → Option (Conversation l E)
  | .near a => (moves s.near s.toFar a).map fun (near, toFar) => { s with near, toFar }
  | .far a => (moves s.far s.toNear a).map fun (far, toNear) => { s with far, toNear }
  | .nearReceives =>
    (takes s.near s.toNear s.far.quit.isSome).map fun (near, toNear) => { s with near, toNear }
  | .farReceives =>
    (takes s.far s.toFar s.near.quit.isSome).map fun (far, toFar) => { s with far, toFar }

/-! ## The other side -/

def swap (s : Conversation l E) : Conversation l.swap E := ⟨s.far, s.near, s.toNear, s.toFar⟩

def Action.swap : Action l E → Action l.swap E
  | .near a => .far a
  | .far a => .near a
  | .nearReceives => .farReceives
  | .farReceives => .nearReceives

theorem step_swap (s : Conversation l E) (a : Action l E) :
    s.swap.step a.swap = (s.step a).map swap := by
  cases a <;> simp only [step, Option.map_map] <;> rfl

theorem run_swap {first token first' token' : UInt32} {as : List (Action l E)}
    {s : Conversation l E} (hrun : Transition.Run step (start first token first' token') as s) :
    Transition.Run step (start first' token' first token) (as.map Action.swap) s.swap := by
  induction hrun with
  | nil => exact .nil
  | @snoc as s s' a _ hs ih =>
    rw [List.map_append]
    exact ih.snoc (by rw [step_swap, hs]; rfl)

/-! ## What both sides have in common -/

/-- Each side has run by itself, and what came in at one of them, and what is in flight to it, was
accepted at the other one. -/
structure Joined (first token first' token' : UInt32) (s : Conversation l E) : Prop where
  near : ∃ as, Runs first token as s.near
  far : ∃ as, Runs first' token' as s.far
  toFar : s.far.inbound ++ s.toFar = s.near.accepted
  toNear : s.near.inbound ++ s.toNear = s.far.accepted

variable {first token first' token' : UInt32}

theorem Joined.swap {s : Conversation l E} (h : Joined first token first' token' s) :
    Joined first' token' first token s.swap :=
  ⟨h.far, h.near, h.toNear, h.toFar⟩

theorem Joined.moves {s : Conversation l E} {a : Service.Action l.near E} {near : Serve l.near E}
    {toFar : List (TxJsonRpcMessage l.near)} (h : Joined first token first' token' s)
    (hs : moves s.near s.toFar a = some (near, toFar)) :
    Joined first token first' token' { s with near, toFar } := by
  obtain ⟨hstep, hown, new, rfl, haccepted⟩ := moves_spec hs
  obtain ⟨as, hnear⟩ := h.near
  refine ⟨⟨_, hnear.snoc hstep⟩, h.far, ?_, ?_⟩
  · show s.far.inbound ++ (s.toFar ++ new) = near.accepted
    rw [haccepted, ← h.toFar, List.append_assoc]
  · show near.inbound ++ s.toNear = s.far.accepted
    rw [step_inbound hstep, hown, Option.toList_none, List.append_nil, h.toNear]

theorem Joined.takes {s : Conversation l E} {closed : Bool} {near : Serve l.near E}
    {toNear : List (TxJsonRpcMessage l.far)} (h : Joined first token first' token' s)
    (hs : takes s.near s.toNear closed = some (near, toNear)) :
    Joined first token first' token' { s with near, toNear } := by
  obtain ⟨message, hstep, hqueue⟩ := takes_spec hs
  obtain ⟨as, hnear⟩ := h.near
  refine ⟨⟨_, hnear.snoc hstep⟩, h.far, (step_ofTransport hstep).1 ▸ h.toFar, ?_⟩
  show near.inbound ++ toNear = s.far.accepted
  rw [step_inbound hstep, received?_ofTransport, ← h.toNear, hqueue, List.append_assoc]

theorem Joined.step {s s' : Conversation l E} {a : Action l E}
    (h : Joined first token first' token' s) (hs : s.step a = some s') :
    Joined first token first' token' s' := by
  cases a with
  | near a =>
    obtain ⟨⟨near, toFar⟩, hmoves, rfl⟩ := Option.map_eq_some_iff.mp hs
    exact h.moves hmoves
  | far a =>
    obtain ⟨⟨far, toNear⟩, hmoves, rfl⟩ := Option.map_eq_some_iff.mp hs
    exact (h.swap.moves hmoves).swap
  | nearReceives =>
    obtain ⟨⟨near, toNear⟩, htakes, rfl⟩ := Option.map_eq_some_iff.mp hs
    exact h.takes htakes
  | farReceives =>
    obtain ⟨⟨far, toFar⟩, htakes, rfl⟩ := Option.map_eq_some_iff.mp hs
    exact (h.swap.takes htakes).swap

theorem joined_of_run {as : List (Action l E)} {s : Conversation l E}
    (hrun : Transition.Run step (start first token first' token') as s) :
    Joined first token first' token' s :=
  hrun.invariant (P := fun _ s => Joined first token first' token' s)
    ⟨⟨[], .nil⟩, ⟨[], .nil⟩, rfl, rfl⟩ fun _ h hs => h.step hs

/-! ## What crosses -/

section Crossing

variable {s : Conversation l E} (h : Joined first token first' token' s)
include h

theorem Joined.sent_of_inbound {m : TxJsonRpcMessage l.near} (hm : m ∈ s.far.inbound) :
    m ∈ s.near.sent := by
  obtain ⟨as, hnear⟩ := h.near
  have haccepted : m ∈ s.near.accepted := by
    rw [← h.toFar]
    exact List.mem_append_left _ hm
  exact (Runs.sent_perm hnear).subset (List.mem_append_right _ haccepted)

/-- A loop is sent no batch by a loop. -/
theorem Joined.processed_eq : processed s.far.history = s.far.inbound := by
  obtain ⟨as, hnear⟩ := h.near
  obtain ⟨as', hfar⟩ := h.far
  exact Runs.processed_eq hfar fun m hm => Runs.isBatch_of_sent hnear (h.sent_of_inbound hm)

/-- The requests that have reached the far side are some of those that were handed over. -/
theorem Joined.received_subperm :
    (received s.far.history).Subperm (s.near.sent.filterMap (·.requestedId)) := by
  obtain ⟨as, hnear⟩ := h.near
  have hinbound : s.far.inbound.Subperm s.near.sent := by
    refine List.Subperm.trans ?_ (Runs.sent_perm hnear).subperm
    rw [← h.toFar]
    exact ((List.sublist_append_left _ _).trans (List.sublist_append_right _ _)).subperm
  rw [received_eq, h.processed_eq]
  exact subperm_filterMap _ hinbound

theorem Joined.mem_sent {r : JsonRpcRequest l.near.Req}
    (hr : .peerMessage (.request r) ∈ s.far.history) : .request r ∈ s.near.sent := by
  refine h.sent_of_inbound ?_
  rw [← h.processed_eq]
  exact List.mem_filterMap.mpr ⟨_, hr, rfl⟩

/-- What the far side answers, its handlers have returned. -/
theorem Joined.returned_of_inbound {id : RequestId} {result : Except ErrorData l.near.PeerResp}
    (hm : Serve.answerOf (R := l.far) id result ∈ s.near.inbound) :
    (id, result) ∈ s.far.returned := by
  obtain ⟨as, hfar⟩ := h.far
  have hsent := h.swap.sent_of_inbound hm
  have hanswer : Serve.answerOf (R := l.far) id result ∈ s.far.sentAnswers :=
    List.mem_filter.mpr ⟨hsent, by cases result <;> rfl⟩
  obtain ⟨⟨id', result'⟩, hreturned, heq⟩ :=
    List.mem_map.mp ((Runs.answered hfar).sentAnswers.subset hanswer)
  cases result <;> cases result' <;> cases heq
  all_goals exact hreturned

end Crossing

/-! ## What callers are told -/

/-- `result` is what the far side returned for the request of `responder`: it has received just
this request under the id of the call, and returned just this result for it. -/
def AnsweredBy (near : Serve l.near E) (far : Serve l.far E) (responder : Nat)
    (result : Except ErrorData l.near.PeerResp) : Prop :=
  ∃ request id, .proxyMessage (.request request id responder) ∈ near.history ∧
    (∀ request', .peerMessage (.request ⟨id, request'⟩) ∈ far.history ↔ request' = request) ∧
    ∀ result', (id, result') ∈ far.returned ↔ result' = result

section Told

variable {as : List (Action l E)} {s : Conversation l E}
  (hrun : Transition.Run step (start first token first' token') as s)
include hrun

theorem told_once (hcalls : s.near.requestCalls < 2 ^ 32) :
    (s.near.completions.map (·.1)).Nodup := by
  obtain ⟨as, hnear⟩ := (joined_of_run hrun).near
  exact (Runs.decided hnear hcalls).nodup_completions

theorem answeredBy_of_told (hcalls : s.near.requestCalls < 2 ^ 32) {responder : Nat}
    {result : Except ErrorData l.near.PeerResp}
    (hcompleted : (responder, result.mapError .mcpError) ∈ s.near.completions) :
    AnsweredBy s.near s.far responder result := by
  have h := joined_of_run hrun
  obtain ⟨as, hnear⟩ := h.near
  obtain ⟨as', hfar⟩ := h.far
  have hids := Runs.nodup_requestedId hnear hcalls
  obtain ⟨id, ⟨request, hstored⟩, e, he, hdecides⟩ :=
    (Runs.decided hnear hcalls).of_completed hcompleted
  -- the answer came in, so a handler of the far side has returned it
  have hinbound : Serve.answerOf (R := l.far) id result ∈ s.near.inbound := by
    have hprocessed : processed s.near.history = s.near.inbound := h.swap.processed_eq
    rw [← hprocessed]
    refine List.mem_filterMap.mpr ⟨e, he, ?_⟩
    rw [single?_of_decides hdecides]
    cases result <;> rfl
  have hreturned := h.returned_of_inbound hinbound
  have hreceived : id ∈ received s.far.history :=
    (Runs.answered hfar).returned.subset (List.mem_map.mpr ⟨_, hreturned, rfl⟩)
  have hsent : .request ⟨id, request⟩ ∈ s.near.sent := by
    rw [Runs.sent_eq hnear]
    exact List.mem_filterMap.mpr ⟨_, hstored, rfl⟩
  -- and no other request with this id was handed over, nor another result returned for it
  have hrequest : ∀ request', .peerMessage (.request ⟨id, request'⟩) ∈ s.far.history →
      request' = request := by
    intro request' hrequest'
    have hsame := eq_of_nodup_filterMap hids (h.mem_sent hrequest') hsent rfl rfl
    cases hsame
    rfl
  have hresult : ∀ result', (id, result') ∈ s.far.returned → result' = result := by
    intro result' hresult'
    have hnodup := nodup_of_subperm ((Runs.answered hfar).returned.trans h.received_subperm) hids
    exact (Prod.mk.inj (List.inj_on_of_nodup_map hnodup hresult' hreturned rfl)).2
  refine ⟨request, id, hstored, fun request' => ⟨hrequest request', ?_⟩, fun result' =>
    ⟨hresult result', ?_⟩⟩
  · rintro rfl
    obtain ⟨e', he', hid⟩ := List.mem_filterMap.mp hreceived
    obtain ⟨request'', rfl⟩ := Event.eq_of_receives? hid
    obtain rfl := hrequest request'' he'
    exact he'
  · rintro rfl
    exact hreturned

theorem handled_as_sent {handler : Handler l.far} (hhandler : handler ∈ s.far.handlers) :
    ∃ responder, .proxyMessage (.request handler.request handler.context.id responder) ∈
      s.near.history := by
  have h := joined_of_run hrun
  obtain ⟨as, hnear⟩ := h.near
  obtain ⟨as', hfar⟩ := h.far
  have hprocessed := Runs.handlers_received hfar hhandler
  rw [h.processed_eq] at hprocessed
  have hsent := h.sent_of_inbound hprocessed
  rw [Runs.sent_eq hnear] at hsent
  obtain ⟨e, he, hover⟩ := List.mem_filterMap.mp hsent
  obtain ⟨responder, rfl⟩ := Event.eq_of_handsOver? hover
  exact ⟨responder, he⟩

end Told

/-- What a caller is told is what the other side returned for its request, and no caller is told
anything twice. A handler runs a request as it was sent. -/
theorem answered_by_peer {as : List (Action l E)} {s : Conversation l E}
    (hrun : Transition.Run step (start first token first' token') as s)
    (hcalls : s.near.requestCalls < 2 ^ 32) :
    (s.near.completions.map (·.1)).Nodup ∧
    (∀ responder result, (responder, result.mapError .mcpError) ∈ s.near.completions →
      AnsweredBy s.near s.far responder result) ∧
    ∀ handler ∈ s.far.handlers, ∃ responder,
      .proxyMessage (.request handler.request handler.context.id responder) ∈ s.near.history :=
  ⟨told_once hrun hcalls, fun _ _ => answeredBy_of_told hrun hcalls, fun _ => handled_as_sent hrun⟩

/-- Two sides whose requests are their metadata. -/
def bareLink : Link where
  near := bareClient
  setMeta m _ := m
  extensions m := ⟨some m⟩

/-- A call crosses, and its handler runs. -/
def crossedRun : List (Action bareLink Unit) :=
  [.near (.requestCalled Meta.staticEmpty ⟨none⟩), .near (.requestQueued 0), .near .proxied,
    .near (.sendAccepted 0), .farReceives]

/-- The handler returns, and its answer crosses. -/
def repliedRun : List (Action bareLink Unit) :=
  crossedRun ++ [.far (.handlerReturns 0 (.ok ())), .far (.responseQueued 0), .far .toSink,
    .far (.responseAccepted 0), .nearReceives]

theorem answered_by_peer_repliedRun : ∃ s : Conversation bareLink Unit,
    Transition.Run step (start 0 0 0 0) repliedRun s ∧ s.near.requestCalls < 2 ^ 32 ∧
    s.near.completions = [(0, .ok ())] ∧ AnsweredBy s.near s.far 0 (.ok ()) := by
  have hrun : ∃ s : Conversation bareLink Unit,
      Transition.Run step (start 0 0 0 0) repliedRun s ∧ s.near.requestCalls = 1 ∧
      s.near.completions = [(0, .ok ())] := ⟨_, Transition.run_of_exec rfl, rfl, rfl⟩
  obtain ⟨s, hrun, hcalls, hcompletions⟩ := hrun
  have hfew : s.near.requestCalls < 2 ^ 32 := by omega
  refine ⟨s, hrun, hfew, hcompletions, (answered_by_peer hrun hfew).2.1 0 (.ok ()) ?_⟩
  rw [hcompletions]
  exact List.mem_singleton.mpr rfl

/-! ## Where calls are -/

/-- Where a request of the near side can be, between the turn that stores it and the turn that
its answer comes in. -/
inductive Place
  | unsent
  | crossing
  | running
  | aborted
  | responding
  | inSink
  | answerUnsent
  | answerCrossing

def Place.all : List Place :=
  [.unsent, .crossing, .running, .aborted, .responding, .inSink, .answerUnsent, .answerCrossing]

theorem Place.mem_all (place : Place) : place ∈ Place.all := by
  cases place <;> simp [Place.all]

/-- The requests of the near side at a place. -/
def callsAt (s : Conversation l E) : Place → List RequestId
  | .unsent => s.near.unsentMessages.filterMap (·.requestedId)
  | .crossing => s.toFar.filterMap (·.requestedId)
  | .running => s.far.handlers.map (·.context.id)
  | .aborted => s.far.aborted
  | .responding => s.far.responding.filterMap (·.answeredId)
  | .inSink => s.far.sinkProxyRx.filterMap (·.answeredId)
  | .answerUnsent => s.far.unsentMessages.filterMap (·.answeredId)
  | .answerCrossing => s.toNear.filterMap (·.answeredId)

/-- On the way there. -/
theorem Joined.requests_perm {s : Conversation l E} (h : Joined first token first' token' s) :
    (s.callsAt .unsent ++ s.callsAt .crossing ++ received s.far.history).Perm
      ((storedRequests s.near.history).map (·.1)) := by
  obtain ⟨as, hnear⟩ := h.near
  rw [← Runs.requests_eq hnear, received_eq, h.processed_eq]
  refine List.Perm.trans ?_ ((Runs.sent_perm hnear).filterMap (·.requestedId))
  rw [List.filterMap_append, ← h.toFar, List.filterMap_append, List.append_assoc]
  exact List.perm_append_comm.append_left _

/-- On the way back. -/
theorem Joined.answers_perm {s : Conversation l E} (h : Joined first token first' token' s) :
    (s.callsAt .responding ++ s.callsAt .inSink ++ s.callsAt .answerUnsent ++
      s.callsAt .answerCrossing ++ answered s.near.history).Perm (s.far.returned.map (·.1)) := by
  obtain ⟨as, hfar⟩ := h.far
  have hprocessed : processed s.near.history = s.near.inbound := h.swap.processed_eq
  have hsent : (s.callsAt .answerUnsent ++
      (s.near.inbound ++ s.toNear).filterMap (·.answeredId)).Perm
        (s.far.sentAnswers.filterMap (·.answeredId)) := by
    rw [answeredId_sentAnswers, h.toNear]
    exact List.filterMap_append ▸ (Runs.sent_perm hfar).filterMap (·.answeredId)
  rw [← Serve.answeredId_returnedAnswers]
  refine List.Perm.trans ?_ ((Runs.answers_perm hfar).filterMap (·.answeredId))
  rw [answered, hprocessed, Serve.answers, List.filterMap_append, List.filterMap_append]
  rw [List.append_assoc, List.append_assoc]
  refine .append_left _ (List.Perm.trans (.append_left _ ?_) hsent)
  rw [List.filterMap_append]
  exact List.perm_append_comm

/-- Nothing of it is lost, and nothing is there twice. -/
theorem Joined.places_perm {s : Conversation l E} (h : Joined first token first' token' s) :
    (Place.all.flatMap s.callsAt ++ answered s.near.history).Perm
      ((storedRequests s.near.history).map (·.1)) := by
  obtain ⟨as, hfar⟩ := h.far
  have hthere := h.requests_perm
  have hhandled : (s.callsAt .running ++ s.far.returned.map (·.1) ++ s.callsAt .aborted).Perm
      (received s.far.history) := Runs.handled_perm hfar
  have hback := h.answers_perm
  refine List.perm_iff_count.mpr fun id => ?_
  have hthere := hthere.count_eq id
  have hhandled := hhandled.count_eq id
  have hback := hback.count_eq id
  simp only [Place.all, List.flatMap_cons, List.flatMap_nil, List.append_nil,
    List.count_append] at hthere hhandled hback ⊢
  omega

/-- What a step does to the near side. -/
theorem near_of_step {s s' : Conversation l E} {a : Action l E} (hs : s.step a = some s') :
    s'.near = s.near ∨ ∃ b, Service.step s.near b = some s'.near := by
  cases a with
  | near a =>
    obtain ⟨⟨near, toFar⟩, hmoves, rfl⟩ := Option.map_eq_some_iff.mp hs
    exact .inr ⟨_, (moves_spec hmoves).1⟩
  | nearReceives =>
    obtain ⟨⟨near, toNear⟩, htakes, rfl⟩ := Option.map_eq_some_iff.mp hs
    obtain ⟨message, hstep, -⟩ := takes_spec htakes
    exact .inr ⟨_, hstep⟩
  | far a =>
    obtain ⟨⟨far, toNear⟩, hmoves, rfl⟩ := Option.map_eq_some_iff.mp hs
    exact .inl rfl
  | farReceives =>
    obtain ⟨⟨far, toFar⟩, htakes, rfl⟩ := Option.map_eq_some_iff.mp hs
    exact .inl rfl

/-- A call is taken out of the pool by its answer, and no call is stored after that. -/
theorem not_waiting_of_answered {as : List (Action l E)} {s : Conversation l E}
    (hrun : Transition.Run step (start first token first' token') as s)
    (hcalls : s.near.requestCalls < 2 ^ 32) {id : RequestId} (hid : id ∈ answered s.near.history) :
    s.near.localResponderPool.get id = none := by
  refine hrun.invariant (P := fun _ s => s.near.requestCalls < 2 ^ 32 →
    ∀ id ∈ answered s.near.history, s.near.localResponderPool.get id = none) ?_ ?_ hcalls id hid
  · intro _ id hid
    cases hid
  intro as s s' a hrun ih hs hcalls id hid
  have h' := joined_of_run (hrun.snoc hs)
  obtain ⟨as, hnear'⟩ := h'.near
  rcases near_of_step hs with hnear | ⟨b, hnear⟩
  · rw [hnear] at hcalls hid ⊢
    exact ih hcalls id hid
  obtain ⟨as, hissued⟩ := (joined_of_run hrun).near
  have ih := ih (((Runs.issued hissued).step hnear).2.trans_lt hcalls)
  rcases step_cases hnear with hmoved | ⟨e, s₀, htaken, hturn⟩ | ⟨reason, heq⟩
  · rw [hmoved.beside.history_eq] at hid
    rw [hmoved.beside.pool_eq]
    exact ih id hid
  · rw [hturn.history_eq, htaken.kept.history_eq, answered_concat] at hid
    rw [hturn.pool_eq, htaken.kept.pool_eq]
    cases hstored : e.stored? with
    | some p =>
      -- the id of a request that is stored now is none that was answered before
      have hids := Runs.nodup_requestedId hnear' hcalls
      rw [Runs.requests_eq hnear', hturn.history_eq, htaken.kept.history_eq,
        storedRequests_concat, hstored, List.map_append] at hids
      have hnone : e.single? = none := Event.single?_of_stored? hstored
      rw [hnone] at hid
      have hid : id ∈ answered s.near.history := by simpa using hid
      have hold := (joined_of_run hrun).places_perm.subset (List.mem_append_right _ hid)
      have hne : id ≠ p.1 := by
        rintro rfl
        exact List.disjoint_of_nodup_append hids hold (by simp)
      rw [HashMap.get_insert_of_ne hne]
      exact ih id hid
    | none =>
      rcases List.mem_append.mp hid with hid | hid
      · cases e.decides with
        | none => exact ih id hid
        | some d => simp [HashMap.get_remove, ih id hid]
      · obtain ⟨outcome, hdecides⟩ := decides_of_answeredId (Option.mem_toList.mp hid)
        simp [hdecides]
  · rw [heq] at hid ⊢
    exact ih id hid

section Places

variable {as : List (Action l E)} {s : Conversation l E}
  (hrun : Transition.Run step (start first token first' token') as s)
  (hcalls : s.near.requestCalls < 2 ^ 32)
include hrun

theorem exists_place {request : l.near.Req} {id : RequestId} {responder : Nat}
    (hstored : .proxyMessage (.request request id responder) ∈ s.near.history)
    (hid : id ∉ answered s.near.history) : ∃ place, id ∈ s.callsAt place := by
  have hmem : id ∈ (storedRequests s.near.history).map (·.1) :=
    List.mem_map.mpr ⟨(id, responder), List.mem_filterMap.mpr ⟨_, hstored, rfl⟩, rfl⟩
  rcases List.mem_append.mp ((joined_of_run hrun).places_perm.symm.subset hmem) with hplace | hid'
  · obtain ⟨place, -, hplace⟩ := List.mem_flatMap.mp hplace
    exact ⟨place, hplace⟩
  · exact absurd hid' hid

include hcalls

/-- No id is twice in what the places hold and what has been answered. -/
theorem places_nodup : (Place.all.flatMap s.callsAt ++ answered s.near.history).Nodup := by
  obtain ⟨as, hnear⟩ := (joined_of_run hrun).near
  have hids := Runs.nodup_requestedId hnear hcalls
  rwa [Runs.requests_eq hnear, ← (joined_of_run hrun).places_perm.nodup_iff] at hids

theorem not_answered_of_place {place : Place} {id : RequestId} (hid : id ∈ s.callsAt place) :
    id ∉ answered s.near.history := by
  obtain ⟨-, -, hanswered⟩ := List.nodup_append'.mp (places_nodup hrun hcalls)
  exact hanswered (List.mem_flatMap.mpr ⟨place, place.mem_all, hid⟩)

theorem place_eq {place place' : Place} {id : RequestId} (hid : id ∈ s.callsAt place)
    (hid' : id ∈ s.callsAt place') : place' = place := by
  obtain ⟨hplaces, -, -⟩ := List.nodup_append'.mp (places_nodup hrun hcalls)
  obtain ⟨-, hdisjoint⟩ := List.nodup_flatMap.mp hplaces
  have hunique : ∀ place ∈ Place.all, ∀ place' ∈ Place.all, ∀ id ∈ s.callsAt place,
      id ∈ s.callsAt place' → place' = place := by
    refine List.Pairwise.forall_of_forall_of_flip (fun _ _ _ _ _ => rfl) ?_ ?_
    · exact hdisjoint.imp fun hd id hid hid' => (hd hid hid').elim
    · refine hdisjoint.imp fun {place place'} hd => ?_
      show ∀ id ∈ s.callsAt place', id ∈ s.callsAt place → place = place'
      exact fun id hid hid' => (hd hid' hid).elim
  exact hunique place place.mem_all place' place'.mem_all id hid hid'

theorem unanswered_of_waiting {id : RequestId} {responder : Nat}
    (hget : s.near.localResponderPool.get id = some responder) :
    (∃ request, .proxyMessage (.request request id responder) ∈ s.near.history) ∧
      id ∉ answered s.near.history := by
  obtain ⟨as, hnear⟩ := (joined_of_run hrun).near
  refine ⟨?_, fun hid => ?_⟩
  · obtain ⟨e, he, hstored⟩ :=
      List.mem_filterMap.mp ((Runs.decided hnear hcalls).pool_stored id responder hget)
    obtain ⟨request, rfl⟩ := Event.eq_of_stored? hstored
    exact ⟨request, he⟩
  · rw [not_waiting_of_answered hrun hcalls hid] at hget
    cases hget

end Places

/-- A request that a loop has taken up is at exactly one place as long as no answer to it has come
in, and at none after that. A call that waits is one that has not been answered. -/
theorem call_in_one_place {as : List (Action l E)} {s : Conversation l E}
    (hrun : Transition.Run step (start first token first' token') as s)
    (hcalls : s.near.requestCalls < 2 ^ 32) :
    (∀ request id responder, .proxyMessage (.request request id responder) ∈ s.near.history →
      ((∃! place, id ∈ s.callsAt place) ↔ id ∉ answered s.near.history) ∧
      ((∀ place, id ∉ s.callsAt place) ↔ id ∈ answered s.near.history)) ∧
    (∀ place, (s.callsAt place).Nodup) ∧
    ∀ id responder, s.near.localResponderPool.get id = some responder →
      (∃ request, .proxyMessage (.request request id responder) ∈ s.near.history) ∧
      id ∉ answered s.near.history := by
  refine ⟨fun request id responder hstored => ⟨⟨?_, fun hid => ?_⟩, fun hnone => ?_, ?_⟩,
    fun place => ?_, fun _ _ => unanswered_of_waiting hrun hcalls⟩
  · rintro ⟨place, hplace, -⟩
    exact not_answered_of_place hrun hcalls hplace
  · obtain ⟨place, hplace⟩ := exists_place hrun hstored hid
    exact ⟨place, hplace, fun place' => place_eq hrun hcalls hplace⟩
  · by_contra hid
    obtain ⟨place, hplace⟩ := exists_place hrun hstored hid
    exact hnone place hplace
  · exact fun hid place hplace => not_answered_of_place hrun hcalls hplace hid
  · obtain ⟨hplaces, -, -⟩ := List.nodup_append'.mp (places_nodup hrun hcalls)
    exact (List.nodup_flatMap.mp hplaces).1 place place.mem_all

theorem call_in_one_place_crossedRun : ∃ (s : Conversation bareLink Unit) (request : Meta),
    Transition.Run step (start 0 0 0 0) crossedRun s ∧ s.near.requestCalls < 2 ^ 32 ∧
    .proxyMessage (.request request (.number 0) 0) ∈ s.near.history ∧
    s.callsAt .running = [.number 0] ∧ ∃! place, .number 0 ∈ s.callsAt place := by
  have hrun : ∃ (s : Conversation bareLink Unit) (request : Meta),
      Transition.Run step (start 0 0 0 0) crossedRun s ∧ s.near.requestCalls = 1 ∧
      s.near.history = [.proxyMessage (.request request (.number 0) 0)] ∧
      s.callsAt .running = [.number 0] := ⟨_, _, Transition.run_of_exec rfl, rfl, rfl, rfl⟩
  obtain ⟨s, request, hrun, hcalls, hhistory, hrunning⟩ := hrun
  have hfew : s.near.requestCalls < 2 ^ 32 := by omega
  have hstored : .proxyMessage (.request request (.number 0) 0) ∈ s.near.history := by
    rw [hhistory]
    exact List.mem_singleton.mpr rfl
  refine ⟨s, request, hrun, hfew, hstored, hrunning, ?_⟩
  obtain ⟨hplaces, -, -⟩ := call_in_one_place hrun hfew
  refine (hplaces request (.number 0) 0 hstored).1.mpr ?_
  rw [hhistory]
  exact List.not_mem_nil

end Conversation

end Rmcp.Service
