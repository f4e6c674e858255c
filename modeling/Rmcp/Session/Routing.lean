import Rmcp.Session.Run
import Rmcp.Support.Registry

/-!
# Routing refines a registry

The two routers of a worker are a registry: `resource_router` is the owner map, and the
`resources` sets are the members. Each step of the loop is a list of registry operations,
which can be read off the action and the number of channels established before. So the
routers after a run are those operations, applied to the empty registry.

The worker keeps the routers consistent as long as every operation is safe. Three things
break them: closing a channel that still has registered requests, registering a key of one
channel on another, and establishing a channel under an id that is still in use after the
counter has wrapped.

Results:
1. `Runs.registry`: the refinement.
2. `router_consistent`: in a run of safe operations the routers are consistent, and no
   server message is dropped.
3. `router_inconsistent_after_close`: closing a channel with an unanswered request leaves
   its route behind, and a later message for that request is dropped.
-/

namespace Rmcp.Session

variable {P : Payloads}

abbrev RouterOp := Registry.Op ResourceKey HttpRequestId

/-! ## The operations of an action -/

def requestOps (request : JsonRpcRequest P.ClientRequest) (httpRequestId : HttpRequestId) :
    List RouterOp :=
  .attach (.mcpRequestId request.id) httpRequestId ::
    match (P.getMeta request.request).getProgressToken with
    | some token => [.attach (.progressToken token) httpRequestId]
    | none => []

def itemOps (httpRequestId : Option HttpRequestId) :
    JsonRpcBatchRequestItem P.ClientRequest ClientNotification → List RouterOp
  | .request request =>
    match httpRequestId with
    | some httpRequestId => requestOps request httpRequestId
    | none => []
  | .notification n =>
    match n.notification with
    | .cancelledNotification n => [.detach (.mcpRequestId n.params.requestId)]
    | _ => []

/-- The operations of a message of the client that is posted on `httpRequestId`. -/
def clientOps (httpRequestId : Option HttpRequestId) : ClientJsonRpcMessage P → List RouterOp
  | .request request => @itemOps P httpRequestId (.request request)
  | .notification n => @itemOps P httpRequestId (.notification n)
  | .batchRequest items => items.flatMap (itemOps httpRequestId)
  | .response _ | .batchResponse _ | .error _ => []

/-- The operations of a message of the handler. -/
def handlerOps : ServerJsonRpcMessage P → List RouterOp
  | .response r => [.detach (.mcpRequestId r.id)]
  | .error e => [.detach (.mcpRequestId e.id)]
  | .batchResponse items => items.map fun item => .detach (.mcpRequestId item.id)
  | .request _ | .notification _ | .batchRequest _ => []

/-- The operations of an action when `next` is the id of the next channel. -/
def actionOps (next : HttpRequestId) : Action P → List RouterOp
  | .httpService (.clientMessage message httpRequestId) => clientOps httpRequestId message
  | .httpService .establishRequestWiseChannel => [.openGroup next]
  | .httpService (.closeRequestWiseChannel id) => [.closeGroup id]
  | .handler message => handlerOps message
  | _ => []

/-- The id of the next channel after an action. -/
def nextAfter (next : HttpRequestId) : Action P → HttpRequestId
  | .httpService .establishRequestWiseChannel => next + 1
  | _ => next

/-- The operations of a list of actions. -/
def routerTrace (next : HttpRequestId) : List (Action P) → List RouterOp
  | [] => []
  | a :: as => actionOps next a ++ routerTrace (nextAfter next a) as

theorem routerTrace_append (next : HttpRequestId) (as bs : List (Action P)) :
    routerTrace next (as ++ bs) =
      routerTrace next as ++ routerTrace (as.foldl nextAfter next) bs := by
  induction as generalizing next with
  | nil => rfl
  | cons a as ih => simp [routerTrace, ih]

/-! ## The refinement -/

namespace SessionWorker

/-- The two routers of a worker. -/
def registry (w : SessionWorker P) : Registry ResourceKey HttpRequestId :=
  ⟨w.resourceRouter, w.txRouter.mapValues (·.resources)⟩

theorem registry_unregisterResource (w : SessionWorker P) (k : ResourceKey) :
    (w.unregisterResource k).registry = w.registry.detach k := by
  unfold unregisterResource Registry.detach registry
  simp only [HashMap.get_mapValues]
  cases w.resourceRouter.get k with
  | none => rfl
  | some h =>
    simp only []
    cases w.txRouter.get h with
    | none => rfl
    | some channel =>
      simp only [Option.map_some]
      split <;> simp

theorem registry_registerResource (w : SessionWorker P) (k : ResourceKey) (h : HttpRequestId) :
    (w.registerResource k h).registry = w.registry.attach k h := by
  unfold registerResource Registry.attach registry
  simp only [HashMap.get_mapValues]
  cases w.txRouter.get h with
  | none => rfl
  | some channel => simp

/-- The worker `w'` has the routers of `w` after the operations `ops`; no channel was
established. -/
structure Routed (w : SessionWorker P) (ops : List RouterOp) (w' : SessionWorker P) : Prop where
  registry_eq : w'.registry = w.registry.applyAll ops
  next_eq : w'.nextHttpRequestId = w.nextHttpRequestId

/-- Besides, every channel of `w'` is one of `w` with the same sender. -/
structure Rewired (w : SessionWorker P) (ops : List RouterOp) (w' : SessionWorker P) : Prop
    extends Routed w ops w' where
  common_eq : w'.common = w.common
  config_eq : w'.sessionConfig = w.sessionConfig
  tx_eq : ∀ h channel', w'.txRouter.get h = some channel' →
    ∃ channel, w.txRouter.get h = some channel ∧ channel'.tx = channel.tx

theorem Routed.refl (w : SessionWorker P) : Routed w [] w := ⟨rfl, rfl⟩

theorem Routed.trans {w₁ w₂ w₃ : SessionWorker P} {ops ops' : List RouterOp}
    (h : Routed w₁ ops w₂) (h' : Routed w₂ ops' w₃) : Routed w₁ (ops ++ ops') w₃ := by
  refine ⟨?_, h'.next_eq.trans h.next_eq⟩
  rw [h'.registry_eq, h.registry_eq, Registry.applyAll_append]

theorem Rewired.refl (w : SessionWorker P) : Rewired w [] w :=
  ⟨.refl w, rfl, rfl, fun _ channel h => ⟨channel, h, rfl⟩⟩

theorem Rewired.trans {w₁ w₂ w₃ : SessionWorker P} {ops ops' : List RouterOp}
    (h : Rewired w₁ ops w₂) (h' : Rewired w₂ ops' w₃) : Rewired w₁ (ops ++ ops') w₃ := by
  refine ⟨h.toRouted.trans h'.toRouted, h'.common_eq.trans h.common_eq,
    h'.config_eq.trans h.config_eq, fun id channel₃ h₃ => ?_⟩
  obtain ⟨channel₂, h₂, htx₂⟩ := h'.tx_eq id channel₃ h₃
  obtain ⟨channel₁, h₁, htx₁⟩ := h.tx_eq id channel₂ h₂
  exact ⟨channel₁, h₁, htx₂.trans htx₁⟩

/-- An operation that only changes the routers, and makes no new sender. -/
theorem rewired_of_routers {w : SessionWorker P} {ops : List RouterOp}
    {txRouter : HashMap HttpRequestId (HttpRequestWise P)}
    {resourceRouter : HashMap ResourceKey HttpRequestId}
    (hregistry : { w with txRouter, resourceRouter }.registry = w.registry.applyAll ops)
    (htx : ∀ h channel', txRouter.get h = some channel' →
      ∃ channel, w.txRouter.get h = some channel ∧ channel'.tx = channel.tx) :
    Rewired w ops { w with txRouter, resourceRouter } :=
  ⟨⟨hregistry, rfl⟩, rfl, rfl, htx⟩

theorem rewired_unregisterResource (w : SessionWorker P) (k : ResourceKey) :
    Rewired w [.detach k] (w.unregisterResource k) := by
  have hregistry := registry_unregisterResource w k
  unfold unregisterResource at hregistry ⊢
  cases howner : w.resourceRouter.get k with
  | none =>
    simp only [howner] at hregistry
    exact rewired_of_routers hregistry fun _ channel hget => ⟨channel, hget, rfl⟩
  | some id =>
    cases hid : w.txRouter.get id with
    | none =>
      simp only [howner, hid] at hregistry ⊢
      exact rewired_of_routers hregistry fun _ channel hget => ⟨channel, hget, rfl⟩
    | some channel =>
      simp only [howner, hid] at hregistry ⊢
      split at hregistry
      · next hempty =>
        rw [if_pos hempty]
        refine rewired_of_routers hregistry fun h channel' hget => ?_
        rw [HashMap.get_remove] at hget
        split at hget
        · cases hget
        · exact ⟨channel', hget, rfl⟩
      · next hne =>
        rw [if_neg hne]
        refine rewired_of_routers hregistry fun h channel' hget => ?_
        rw [HashMap.get_insert] at hget
        split at hget
        · next heq =>
          cases hget
          exact ⟨channel, heq ▸ hid, rfl⟩
        · exact ⟨channel', hget, rfl⟩

theorem rewired_registerResource (w : SessionWorker P) (k : ResourceKey) (h : HttpRequestId) :
    Rewired w [.attach k h] (w.registerResource k h) := by
  have hregistry := registry_registerResource w k h
  unfold registerResource at hregistry ⊢
  cases hget : w.txRouter.get h with
  | none =>
    simp only [hget] at hregistry
    exact rewired_of_routers hregistry fun _ channel hget => ⟨channel, hget, rfl⟩
  | some channel =>
    simp only [hget] at hregistry ⊢
    refine rewired_of_routers hregistry fun h' channel' hget' => ?_
    rw [HashMap.get_insert] at hget'
    split at hget'
    · next heq =>
      cases hget'
      exact ⟨channel, heq ▸ hget, rfl⟩
    · exact ⟨channel', hget', rfl⟩

theorem rewired_registerRequest (w : SessionWorker P) (request : JsonRpcRequest P.ClientRequest)
    (h : HttpRequestId) : Rewired w (requestOps request h) (w.registerRequest request h) := by
  unfold registerRequest requestOps
  cases (P.getMeta request.request).getProgressToken with
  | none => exact rewired_registerResource w _ h
  | some token => exact (rewired_registerResource w _ h).trans (rewired_registerResource _ _ h)

theorem rewired_registerItem (w : SessionWorker P) (h : Option HttpRequestId)
    (item : JsonRpcBatchRequestItem P.ClientRequest ClientNotification) :
    Rewired w (itemOps h item) (w.registerItem h item) := by
  cases item with
  | request request =>
    cases h with
    | none => exact .refl w
    | some h => exact rewired_registerRequest w request h
  | notification n =>
    simp only [registerItem, catchCancellationNotification, itemOps]
    cases n.notification with
    | cancelledNotification n => exact rewired_unregisterResource w _
    | _ => exact .refl w

/-- A loop over the items of a batch. -/
theorem rewired_foldl {α : Type} {f : SessionWorker P → α → SessionWorker P}
    {ops : α → List RouterOp} (hf : ∀ w a, Rewired w (ops a) (f w a)) (w : SessionWorker P)
    (as : List α) : Rewired w (as.flatMap ops) (as.foldl f w) := by
  induction as generalizing w with
  | nil => exact .refl w
  | cons a as ih => exact (hf w a).trans (ih (f w a))

theorem rewired_registerMessage (w : SessionWorker P) (h : Option HttpRequestId)
    (message : ClientJsonRpcMessage P) :
    Rewired w (clientOps h message) (w.registerMessage h message) := by
  cases message with
  | request request => exact rewired_registerItem w h (.request request)
  | notification n => exact rewired_registerItem w h (.notification n)
  | batchRequest items => exact rewired_foldl (fun w => rewired_registerItem w h) w items
  | response _ => exact .refl w
  | batchResponse _ => exact .refl w
  | error _ => exact .refl w

theorem rewired_catchResponse (w : SessionWorker P) (message : ServerJsonRpcMessage P) :
    Rewired w (handlerOps message) (w.catchResponse message) := by
  cases message with
  | response r => exact rewired_unregisterResource w _
  | error e => exact rewired_unregisterResource w _
  | batchResponse items =>
    have h := rewired_foldl (fun w (item : JsonRpcBatchResponseItem P.ServerResult) =>
      rewired_unregisterResource w (.mcpRequestId item.id)) w items
    rwa [← List.map_eq_flatMap] at h
  | request _ => exact .refl w
  | notification _ => exact .refl w
  | batchRequest _ => exact .refl w

/-- Sending on a channel leaves the routers alone. -/
theorem routed_insert {w : SessionWorker P} {h : HttpRequestId} {channel : HttpRequestWise P}
    (hget : w.txRouter.get h = some channel) (tx : CachedTx P) :
    Routed w [] { w with txRouter := w.txRouter.insert h { channel with tx } } := by
  refine ⟨?_, rfl⟩
  have hresources : (w.txRouter.mapValues (·.resources)).get h = some channel.resources := by
    simp [hget]
  simp [registry, HashMap.insert_of_get hresources]

theorem outboundOf_cases (w : SessionWorker P) (k : ResourceKey) :
    w.outboundOf k = .common ∨
      ∃ id, w.outboundOf k = .requestWise id false ∧ w.resourceRouter.get k = some id := by
  unfold outboundOf
  cases w.resourceRouter.get k with
  | none => exact .inl rfl
  | some id => exact .inr ⟨id, rfl, rfl⟩

/-- A message goes to the common channel, or to the channel that some key is routed to; the
channel is never closed after it. -/
theorem resolveOutboundChannel_cases {w : SessionWorker P} {message : ServerJsonRpcMessage P}
    {out : OutboundChannel} (h : w.resolveOutboundChannel message = .ok out) :
    out = .common ∨ ∃ k id, out = .requestWise id false ∧ w.resourceRouter.get k = some id := by
  have hkey : ∀ k, out = w.outboundOf k →
      out = .common ∨ ∃ k id, out = .requestWise id false ∧ w.resourceRouter.get k = some id := by
    rintro k rfl
    rcases w.outboundOf_cases k with hcommon | ⟨id, hid, hget⟩
    · exact .inl hcommon
    · exact .inr ⟨k, id, hid, hget⟩
  unfold resolveOutboundChannel at h
  split at h
  · exact .inl (Except.ok.inj h).symm
  · split at h
    · exact hkey _ (Except.ok.inj h).symm
    · exact hkey _ (Except.ok.inj h).symm
    · exact .inl (Except.ok.inj h).symm
  · exact hkey _ (Except.ok.inj h).symm
  · exact hkey _ (Except.ok.inj h).symm
  · cases h
  · cases h

theorem routed_handleServerMessage {w w' : SessionWorker P} {channels channels' : Channels P}
    {message : ServerJsonRpcMessage P} {result : Except SessionError Unit}
    (h : w.handleServerMessage channels message = .ok (result, w', channels')) : Routed w [] w' := by
  obtain ⟨out, hout, h⟩ := Exec.bind_eq_ok.mp h
  rcases resolveOutboundChannel_cases hout with rfl | ⟨k, id, rfl, -⟩
  · obtain ⟨⟨common, channels₁⟩, -, h⟩ := Exec.bind_eq_ok.mp h
    cases h
    exact ⟨rfl, rfl⟩
  · simp only [] at h
    split at h
    · next channel hget =>
      obtain ⟨⟨tx, channels₁⟩, -, h⟩ := Exec.bind_eq_ok.mp h
      cases h
      exact routed_insert hget tx
    · cases h
      exact .refl w

theorem routed_resume {w w' : SessionWorker P} {channels channels' : Channels P}
    {lastEventId : EventId} {result : Except SessionError StreamableHttpMessageReceiver}
    (h : w.resume channels lastEventId = .ok (result, w', channels')) : Routed w [] w' := by
  unfold resume at h
  simp only [] at h
  split at h
  · split at h
    · cases h
      exact .refl w
    · next hget =>
      obtain ⟨⟨result₁, tx, channels₁⟩, -, h⟩ := Exec.bind_eq_ok.mp h
      cases h
      exact routed_insert hget tx
  · obtain ⟨⟨result₁, common, channels₁⟩, -, h⟩ := Exec.bind_eq_ok.mp h
    cases h
    exact ⟨rfl, rfl⟩

end SessionWorker

theorem Vars.routed_fromHandler {s s' : Vars P} {message : ServerJsonRpcMessage P}
    {result : Except SessionError Unit} (h : s.fromHandler message = .ok (result, s')) :
    s.worker.Routed (handlerOps message) s'.worker := by
  obtain ⟨⟨result₁, worker, channels⟩, hhandle, h⟩ := Exec.bind_eq_ok.mp h
  cases h
  have hrouted := (s.worker.rewired_catchResponse message).toRouted.trans
    (SessionWorker.routed_handleServerMessage hhandle)
  rwa [List.append_nil] at hrouted

/-- One step is the operations of its action. -/
theorem VarsStep.registry {s s' : Vars P} {a : Action P} (h : VarsStep s a s') :
    s'.worker.registry =
        s.worker.registry.applyAll (actionOps s.worker.nextHttpRequestId a) ∧
      s'.worker.nextHttpRequestId = nextAfter s.worker.nextHttpRequestId a := by
  have hquiet : ∀ {ops}, s.worker.Routed ops s'.worker →
      s'.worker.registry = s.worker.registry.applyAll ops ∧
        s'.worker.nextHttpRequestId = s.worker.nextHttpRequestId :=
    fun h => ⟨h.registry_eq, h.next_eq⟩
  cases h with
  | @environment move s' hmove =>
    have hworker : s'.worker = s.worker := by
      cases move <;> simp only [Vars.environment] at hmove
      case receive | dropReceiver =>
        split at hmove <;> cases hmove
        rfl
      all_goals
        cases hmove
        rfl
    rw [hworker]
    exact ⟨rfl, rfl⟩
  | initializeRequest => exact ⟨rfl, rfl⟩
  | initializeResponse => exact ⟨rfl, rfl⟩
  | handler hmessage => exact hquiet (Vars.routed_fromHandler hmessage)
  | @httpService event reply s' hevent =>
    cases event with
    | clientMessage message httpRequestId =>
      obtain ⟨⟨ok, toHandler⟩, -, hevent⟩ := Exec.bind_eq_ok.mp hevent
      cases ok <;> cases hevent
      exact hquiet (s.worker.rewired_registerMessage httpRequestId message).toRouted
    | establishRequestWiseChannel =>
      cases hevent
      refine ⟨?_, rfl⟩
      simp [SessionWorker.registry, actionOps, Registry.apply, Registry.openGroup]
    | closeRequestWiseChannel id =>
      cases hevent
      refine ⟨?_, rfl⟩
      simp [SessionWorker.registry, actionOps, Registry.apply, Registry.closeGroup]
    | resume lastEventId =>
      obtain ⟨⟨result, worker, channels⟩, hresume, hevent⟩ := Exec.bind_eq_ok.mp hevent
      cases hevent
      exact hquiet (SessionWorker.routed_resume hresume)
    | initializeRequest request =>
      cases hevent
      exact ⟨rfl, rfl⟩
    | close => cases hevent

/-- The routers after a run are the operations of its actions. -/
theorem Runs.registry {config : SessionConfig} {as : List (Action P)} {s : Vars P}
    (h : Runs config as s) : s.worker.registry = Registry.empty.applyAll (routerTrace 0 as) := by
  suffices hboth : s.worker.registry = Registry.empty.applyAll (routerTrace 0 as) ∧
      s.worker.nextHttpRequestId = as.foldl nextAfter 0 from hboth.1
  refine h.invariant (I := fun as s =>
    s.worker.registry = Registry.empty.applyAll (routerTrace 0 as) ∧
      s.worker.nextHttpRequestId = as.foldl nextAfter 0) ⟨rfl, rfl⟩ ?_
  rintro as s s' a ⟨hregistry, hnext⟩ hstep
  obtain ⟨hregistry', hnext'⟩ := hstep.registry
  refine ⟨?_, ?_⟩
  · rw [hregistry', hregistry, hnext, routerTrace_append, Registry.applyAll_append]
    simp [routerTrace]
  · rw [hnext', hnext, List.foldl_append]
    rfl

/-! ## Consistency -/

/-- A key is routed to a channel exactly when the channel is open and holds it. -/
def RouterConsistent (w : SessionWorker P) : Prop :=
  ∀ k h, w.resourceRouter.get k = some h ↔
    ∃ channel, w.txRouter.get h = some channel ∧ k ∈ channel.resources

theorem routerConsistent_iff (w : SessionWorker P) : RouterConsistent w ↔ w.registry.Consistent := by
  refine forall_congr' fun k => forall_congr' fun h => iff_congr Iff.rfl ?_
  simp [SessionWorker.registry]

/-- With consistent routers every server message finds its channel. -/
theorem handleServerMessage_delivers {w w' : SessionWorker P} {channels channels' : Channels P}
    {message : ServerJsonRpcMessage P} {result : Except SessionError Unit}
    (hw : RouterConsistent w)
    (h : w.handleServerMessage channels message = .ok (result, w', channels')) :
    result = .ok () := by
  obtain ⟨out, hout, h⟩ := Exec.bind_eq_ok.mp h
  rcases SessionWorker.resolveOutboundChannel_cases hout with rfl | ⟨k, id, rfl, hk⟩
  · obtain ⟨⟨common, channels₁⟩, -, h⟩ := Exec.bind_eq_ok.mp h
    cases h
    rfl
  · obtain ⟨channel, hget, -⟩ := (hw k id).mp hk
    simp only [hget] at h
    obtain ⟨⟨tx, channels₁⟩, -, h⟩ := Exec.bind_eq_ok.mp h
    cases h
    rfl

theorem handlerOps_safe {r : Registry ResourceKey HttpRequestId} (message : ServerJsonRpcMessage P) :
    r.SafeAll (handlerOps message) := by
  refine Registry.safeAll_of_detach fun op hop => ?_
  cases message with
  | response | error =>
    obtain rfl := List.mem_singleton.mp hop
    exact ⟨_, rfl⟩
  | batchResponse items =>
    obtain ⟨item, -, rfl⟩ := List.mem_map.mp hop
    exact ⟨_, rfl⟩
  | request | notification | batchRequest => cases hop

/-- In a run whose operations are all safe the routers are consistent at every turn of the
loop, and no message of the handler is dropped. -/
theorem router_consistent {config : SessionConfig} {as : List (Action P)} {s : Vars P}
    (hrun : Runs config as s) (hsafe : Registry.empty.SafeAll (routerTrace 0 as)) :
    RouterConsistent s.worker ∧
      ∀ message result s', s.fromHandler message = .ok (result, s') →
        ∀ id, result ≠ .error (.channelClosed id) := by
  have hw : s.worker.registry.Consistent := by
    rw [hrun.registry]
    exact Registry.consistent_empty.applyAll hsafe
  refine ⟨(routerConsistent_iff _).mpr hw, ?_⟩
  intro message result s' hmessage id
  obtain ⟨⟨result₁, worker, channels⟩, hhandle, hmessage⟩ := Exec.bind_eq_ok.mp hmessage
  cases hmessage
  -- unregistering a finished request keeps the routers consistent
  have hcaught : RouterConsistent (s.worker.catchResponse message) := by
    rw [routerConsistent_iff, (s.worker.rewired_catchResponse message).registry_eq]
    exact hw.applyAll (handlerOps_safe message)
  rw [handleServerMessage_delivers hcaught hhandle]
  simp

/-- One request is posted on its own channel and answered. -/
def answeredRun : List (Action bare) :=
  handshake ++
    [.httpService .establishRequestWiseChannel, post 1 .staticEmpty 0, .handler (answer 1)]

theorem router_consistent_answeredRun : ∃ s : Vars bare, Runs .default answeredRun s ∧
    Registry.empty.SafeAll (routerTrace 0 answeredRun) ∧ RouterConsistent s.worker := by
  have hrun : ∃ s, Runs .default answeredRun s := ⟨_, Transition.run_of_exec rfl⟩
  have hsafe : Registry.empty.SafeAll (routerTrace 0 answeredRun) :=
    ⟨fun k => by simp [Registry.empty], .inr (.inl rfl), trivial, trivial⟩
  obtain ⟨s, hrun⟩ := hrun
  exact ⟨s, hrun, hsafe, (router_consistent hrun hsafe).1⟩

/-- The HTTP request of an unanswered request goes away, and its channel is closed. -/
def closedRun : List (Action bare) :=
  handshake ++
    [.httpService .establishRequestWiseChannel, post 1 .staticEmpty 0,
      .httpService (.closeRequestWiseChannel 0)]

/-- The route of the request stays, and the next message for it is dropped. -/
theorem router_inconsistent_after_close : ∃ s s' : Vars bare, Runs .default closedRun s ∧
    ¬ RouterConsistent s.worker ∧
    s.fromHandler (.notification ⟨.cancelledNotification ⟨⟨.number 1, none⟩, ⟨none⟩⟩⟩) =
      .ok (.error (.channelClosed (some 0)), s') := by
  have hrun : ∃ s : Vars bare, Runs .default closedRun s ∧
      s.worker.resourceRouter.get (.mcpRequestId (.number 1)) = some 0 ∧
      s.worker.txRouter.get 0 = none :=
    ⟨_, Transition.run_of_exec rfl, rfl, rfl⟩
  obtain ⟨s, hrun, hroute, hclosed⟩ := hrun
  refine ⟨s, s, hrun, fun h => ?_, ?_⟩
  · obtain ⟨channel, hopen, -⟩ := (h _ _).mp hroute
    rw [hclosed] at hopen
    cases hopen
  · simp only [Vars.fromHandler, SessionWorker.catchResponse, SessionWorker.handleServerMessage,
      SessionWorker.resolveOutboundChannel, SessionWorker.outboundOf, hroute, hclosed, Exec.bind_ok]
    rfl

end Rmcp.Session
