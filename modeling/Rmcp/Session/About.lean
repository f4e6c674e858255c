import Rmcp.Session.Delivery
import Rmcp.Session.Fresh
import Rmcp.Session.Log

/-!
# What a channel is about

The loop sends on a request-wise channel what concerns a request that was registered through it:
a notification about its progress or about its cancellation. Its answer goes to the common channel.
So a receiver of such a channel, a resumed one as well, is given notifications about the requests
of the channel only.

Results:
1. `Runs.about`: what is offered on a request-wise channel is about a request of a message that
   was posted on it.
-/

namespace Rmcp.Session

variable {P : Payloads}

/-- The request that a notification of the service is about, or its progress token. -/
def aboutKey? : ServerJsonRpcMessage P → Option ResourceKey
  | .notification n =>
    match n.notification with
    | .progressNotification n => some (.progressToken n.params.progressToken)
    | .cancelledNotification n => some (.mcpRequestId n.params.requestId)
    | _ => none
  | _ => none

/-- A message of a request-wise channel is about a request that was posted on it. -/
def About (as : List (Action P)) (m : ServerSessionMessage P) : Prop :=
  ∀ h, m.eventId.httpRequestId = some h → ∃ message,
    .clientMessage message (some h) ∈ takenEvents as ∧
      ∃ k ∈ messageKeys message, aboutKey? m.message = some k

theorem About.concat {as : List (Action P)} {m : ServerSessionMessage P} (h : About as m)
    (a : Action P) : About (as ++ [a]) m := by
  intro id hid
  obtain ⟨message, hmem, hkey⟩ := h id hid
  refine ⟨message, ?_, hkey⟩
  rw [takenEvents_concat]
  exact List.mem_append_left _ hmem

/-! ## Routes -/

theorem attach_of_requestOps {request : JsonRpcRequest P.ClientRequest} {k : ResourceKey}
    {h h' : HttpRequestId} (hmem : .attach k h' ∈ requestOps request h) :
    h' = h ∧ k ∈ requestKeys request := by
  have hkey : k ∈ Registry.attachedKeys (requestOps request h) :=
    List.mem_filterMap.mpr ⟨_, hmem, rfl⟩
  rw [attachedKeys_requestOps] at hkey
  refine ⟨?_, hkey⟩
  unfold requestOps at hmem
  rcases List.mem_cons.mp hmem with heq | hmem
  · cases heq
    rfl
  · split at hmem
    · cases List.mem_singleton.mp hmem
      rfl
    · cases hmem

theorem attach_of_itemOps {id : Option HttpRequestId}
    (item : JsonRpcBatchRequestItem P.ClientRequest ClientNotification) {k : ResourceKey}
    {h : HttpRequestId} (hmem : .attach k h ∈ itemOps id item) :
    id = some h ∧ k ∈ itemKeys item := by
  cases item with
  | request request =>
    cases id with
    | none => cases hmem
    | some id =>
      obtain ⟨rfl, hkey⟩ := attach_of_requestOps hmem
      exact ⟨rfl, hkey⟩
  | notification n =>
    simp only [itemOps] at hmem
    split at hmem
    · cases List.mem_singleton.mp hmem
    · cases hmem

/-- A key is attached to a channel by a message that is posted on it. -/
theorem attach_of_clientOps {id : Option HttpRequestId} {message : ClientJsonRpcMessage P}
    {k : ResourceKey} {h : HttpRequestId} (hmem : .attach k h ∈ clientOps id message) :
    id = some h ∧ k ∈ messageKeys message := by
  cases message with
  | request request => exact attach_of_itemOps (.request request) hmem
  | notification n =>
    obtain ⟨-, hkey⟩ := @attach_of_itemOps P id (.notification n) k h hmem
    cases hkey
  | batchRequest items =>
    obtain ⟨item, hitem, hmem⟩ := List.mem_flatMap.mp hmem
    obtain ⟨hid, hkey⟩ := attach_of_itemOps item hmem
    exact ⟨hid, List.mem_flatMap.mpr ⟨item, hitem, hkey⟩⟩
  | response _ | batchResponse _ | error _ => cases hmem

theorem attach_of_routerTrace {next h : HttpRequestId} {k : ResourceKey} {as : List (Action P)}
    (hmem : .attach k h ∈ routerTrace next as) : ∃ message,
      .clientMessage message (some h) ∈ takenEvents as ∧ k ∈ messageKeys message := by
  induction as generalizing next with
  | nil => cases hmem
  | cons a as ih =>
    rcases List.mem_append.mp hmem with ha | has
    · cases a with
      | httpService event =>
        cases event with
        | clientMessage message id =>
          obtain ⟨rfl, hkey⟩ := attach_of_clientOps ha
          exact ⟨message, List.mem_cons_self, hkey⟩
        | establishRequestWiseChannel | closeRequestWiseChannel =>
          cases List.mem_singleton.mp ha
        | resume | initializeRequest | close => cases ha
      | handler message =>
        have hnone : k ∈ Registry.attachedKeys (handlerOps message) :=
          List.mem_filterMap.mpr ⟨_, ha, rfl⟩
        rw [attachedKeys_handlerOps] at hnone
        cases hnone
      | _ => cases ha
    · obtain ⟨message, hmem, hkey⟩ := ih has
      refine ⟨message, ?_, hkey⟩
      rw [takenEvents, List.filterMap_cons]
      split
      · exact hmem
      · exact List.mem_cons_of_mem _ hmem

/-- A notification goes to the channel of what it is about. -/
theorem about_of_outlet {w : SessionWorker P} {message : ServerJsonRpcMessage P}
    {h : HttpRequestId} {c : CachedTx P}
    (hout : (w.catchResponse message).outlet message = some (some h, c)) :
    ∃ k, aboutKey? message = some k ∧ w.resourceRouter.get k = some h := by
  have hroute : ∃ close,
      (w.catchResponse message).resolveOutboundChannel message = .ok (.requestWise h close) := by
    unfold SessionWorker.outlet at hout
    split at hout
    · cases hout
    · next close hresolve =>
      obtain ⟨channel, -, heq⟩ := Option.map_eq_some_iff.mp hout
      cases heq
      exact ⟨close, hresolve⟩
    · cases hout
  obtain ⟨close, hroute⟩ := hroute
  have hkey : ∀ k, w.outboundOf k = .requestWise h close → w.resourceRouter.get k = some h := by
    intro k hk
    rcases w.outboundOf_cases k with hcommon | ⟨id, hid, hget⟩
    · rw [hcommon] at hk
      cases hk
    · rw [hid] at hk
      cases hk
      exact hget
  cases message with
  | notification n =>
    simp only [SessionWorker.catchResponse, SessionWorker.resolveOutboundChannel] at hroute
    simp only [aboutKey?]
    cases hn : n.notification with
    | progressNotification | cancelledNotification =>
      rw [hn] at hroute
      exact ⟨_, rfl, hkey _ (Except.ok.inj hroute)⟩
    | _ =>
      rw [hn] at hroute
      cases hroute
  | response r =>
    -- the route of an answer is gone before it is looked for
    have hid : (JsonRpcMessage.response r : ServerJsonRpcMessage P).answeredId = some r.id := rfl
    rw [w.resolveOutboundChannel_answer hid] at hroute
    cases hroute
  | error e =>
    have hid : (JsonRpcMessage.error e : ServerJsonRpcMessage P).answeredId = some e.id := rfl
    rw [w.resolveOutboundChannel_answer hid] at hroute
    cases hroute
  | request | batchRequest | batchResponse => cases hroute

theorem cachedTx_of_outlet {w : SessionWorker P} {message : ServerJsonRpcMessage P}
    {id : Option HttpRequestId} {c : CachedTx P} (hout : w.outlet message = some (id, c)) :
    w.cachedTx id = some c := by
  unfold SessionWorker.outlet at hout
  split at hout
  · cases hout
    rfl
  · obtain ⟨channel, hget, heq⟩ := Option.map_eq_some_iff.mp hout
    cases heq
    simp [SessionWorker.cachedTx, hget]
  · cases hout

/-! ## Receivers -/

/-- What the receivers were given, and what may be replayed to them. -/
structure AllAbout (as : List (Action P)) (s : Vars P) : Prop where
  offered : ∀ rx, ∀ m ∈ s.channels.offered rx, About as m
  cached : ∀ id c, s.worker.cachedTx id = some c → ∀ m ∈ c.cache, About as m

theorem AllAbout.concat {as : List (Action P)} {s : Vars P} (h : AllAbout as s) (a : Action P) :
    AllAbout (as ++ [a]) s :=
  ⟨fun rx m hm => (h.offered rx m hm).concat a,
    fun id c hc m hm => (h.cached id c hc m hm).concat a⟩

theorem CachedTx.mem_remember {c : CachedTx P} {m m' : ServerSessionMessage P}
    (h : m' ∈ (c.remember m).cache) : m' ∈ c.cache ∨ m' = m := by
  unfold remember at h
  simp only [] at h
  split at h
  · rcases List.mem_append.mp h with hold | hnew
    · exact .inl (List.mem_of_mem_tail hold)
    · exact .inr (List.mem_singleton.mp hnew)
  · rcases List.mem_append.mp h with hold | hnew
    · exact .inl hold
    · exact .inr (List.mem_singleton.mp hnew)

theorem AllAbout.step {as : List (Action P)} {s s' : Vars P} {entries : List (LogEntry P)}
    (h : AllAbout as s) (hstep : SendersStep s entries s')
    (hsent : ∀ id m, .sent id m ∈ entries → About as m) : AllAbout as s' := by
  cases hstep with
  | quiet hcached hoffered _ _ =>
    exact ⟨fun rx => hoffered rx ▸ h.offered rx, fun id c hc => h.cached id c (hcached id c hc)⟩
  | @sent _ id c message hc hreplaced hoffered _ _ =>
    have hnew := hsent _ _ List.mem_cons_self
    refine ⟨fun rx m hm => ?_, fun id' c' hc' m hm => ?_⟩
    · rw [hoffered] at hm
      split at hm
      · rcases List.mem_append.mp hm with hold | hm
        · exact h.offered rx m hold
        · exact List.mem_singleton.mp hm ▸ hnew
      · exact h.offered rx m hm
    · rcases hreplaced id' c' hc' with ⟨rfl, rfl⟩ | ⟨-, hold⟩
      · rcases CachedTx.mem_remember hm with hold | rfl
        · exact h.cached _ c hc m hold
        · exact hnew
      · exact h.cached id' c' hold m hm
  | @established _ c hcache _ hreplaced hoffered _ _ =>
    refine ⟨fun rx m hm => ?_, fun id' c' hc' m hm => ?_⟩
    · rw [hoffered] at hm
      split at hm
      · cases hm
      · exact h.offered rx m hm
    · rcases hreplaced id' c' hc' with ⟨rfl, rfl⟩ | ⟨-, hold⟩
      · rw [hcache] at hm
        cases hm
      · exact h.cached id' c' hold m hm
  | @resumed _ id c q hc hreplaced hoffered _ _ =>
    refine ⟨fun rx m hm => ?_, fun id' c' hc' m hm => ?_⟩
    · rw [hoffered] at hm
      split at hm
      · exact h.cached id c hc m (List.mem_of_mem_drop hm)
      · exact h.offered rx m hm
    · rcases hreplaced id' c' hc' with ⟨rfl, rfl⟩ | ⟨-, hold⟩
      · exact h.cached _ c hc m hm
      · exact h.cached id' c' hold m hm

/-- What a step sends on a channel is about a request that is routed to the channel. -/
theorem about_of_logs {config : SessionConfig} {as : List (Action P)} {s : Vars P} {a : Action P}
    (hsenders : SendersOk config s.worker s.channels)
    (hregistry : s.worker.registry = Registry.empty.applyAll (routerTrace 0 as))
    {id : Option HttpRequestId} {m : ServerSessionMessage P} (h : .sent id m ∈ s.logs a) :
    About as m := by
  unfold Vars.logs at h
  split at h
  · cases List.mem_singleton.mp h
  · next message =>
    split at h
    · next id' c hout =>
      cases List.mem_singleton.mp h
      intro h₁ hid
      have hc := (s.worker.rewired_catchResponse message).cachedTx (cachedTx_of_outlet hout)
      obtain rfl : id = some h₁ := (hsenders.numbered hc).httpRequestId_eq.symm.trans hid
      obtain ⟨k, hkey, hroute⟩ := about_of_outlet hout
      have howner : (Registry.empty.applyAll (routerTrace 0 as)).owner.get k = some h₁ :=
        hregistry ▸ hroute
      have hattached := (Registry.attached_of_owner howner).resolve_left (by simp [Registry.empty])
      obtain ⟨posted, hposted, hk⟩ := attach_of_routerTrace hattached
      exact ⟨posted, hposted, k, hk, hkey⟩
    · cases h
  · cases h

theorem allAbout_start (config : SessionConfig) : AllAbout [] (start P config) := by
  refine ⟨fun rx m hm => ?_, fun id c hc m hm => ?_⟩
  · simp only [start, createSession, Mpsc.offered_close, Mpsc.offered_channel] at hm
    split at hm <;> cases hm
  · cases id <;> cases hc
    cases hm

theorem Runs.allAbout {config : SessionConfig} {as : List (Action P)} {s : Vars P}
    (hrun : Runs config as s) : AllAbout as s := by
  suffices hall : SendersOk config s.worker s.channels ∧
      s.worker.registry = Registry.empty.applyAll (routerTrace 0 as) ∧
      s.worker.nextHttpRequestId = as.foldl nextAfter 0 ∧ AllAbout as s from hall.2.2.2
  refine hrun.invariant (I := fun as s => SendersOk config s.worker s.channels ∧
    s.worker.registry = Registry.empty.applyAll (routerTrace 0 as) ∧
    s.worker.nextHttpRequestId = as.foldl nextAfter 0 ∧ AllAbout as s)
    ⟨senders_start config, rfl, rfl, allAbout_start config⟩ ?_
  rintro as s s' a ⟨hsenders, hregistry, hnext, habout⟩ hstep
  obtain ⟨hregistry', hnext'⟩ := hstep.registry
  refine ⟨hstep.senders hsenders, ?_, ?_, ?_⟩
  · rw [hregistry', hregistry, hnext, routerTrace_append, Registry.applyAll_append]
    simp [routerTrace]
  · rw [hnext', hnext, List.foldl_append]
    rfl
  · exact (habout.concat a).step (step_senders hsenders hstep) fun id m hm =>
      (about_of_logs hsenders hregistry hm).concat a

/-- What a receiver of a request-wise channel is given is about a request of a message that was
posted on the channel. -/
theorem Runs.about {config : SessionConfig} {as : List (Action P)} {s : Vars P}
    (hrun : Runs config as s) {rx : Nat} {m : ServerSessionMessage P}
    (hm : m ∈ s.channels.offered rx) : About as m :=
  hrun.allAbout.offered rx m hm

end Rmcp.Session
