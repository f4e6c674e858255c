import Rmcp.Session.Routing
import Rmcp.Support.Ledger

/-!
# When a request-wise channel closes

A request registers its id on its channel, and its progress token as well if it has one. The
answer and the cancellation of a request unregister the id only. So a channel whose requests
are all done is closed exactly when none of them had a progress token, unless it is closed
by hand.

The ids are the keys that pass, the tokens those that stay: the ledger of a channel, read
off the operations of the run, says which requests it has and which are still open. A request
that is posted on a channel that is not in the router is not registered, so the ledger does not
have it. Posting on a closed channel is not needed for that: a cancellation inside a batch may
close the channel under the rest of the batch.

Results:
1. `disciplined_routerTrace`: a client that does not reuse ids keeps the discipline.
2. `channel_closed_iff`: when a channel with finished requests is closed.
3. `channel_open_after_answer`: a request with a progress token keeps its channel open.
4. `channel_stays_open`: a channel with a request that is not done is open, if its requests
   are posted while it is open.
5. `channel_closed_in_batch`: a channel that a message closes half way through.
-/

namespace Rmcp.Session

variable {P : Payloads}

/-! ## The ids a client uses -/

def itemRequestId? : JsonRpcBatchRequestItem P.ClientRequest ClientNotification → Option RequestId
  | .request request => some request.id
  | .notification _ => none

def clientRequestIds : ClientJsonRpcMessage P → List RequestId
  | .request request => [request.id]
  | .batchRequest items => items.filterMap itemRequestId?
  | .response _ | .notification _ | .batchResponse _ | .error _ => []

def actionRequestIds : Action P → List RequestId
  | .httpService (.clientMessage message _) => clientRequestIds message
  | _ => []

/-- The ids of the requests that reach the loop, in order. -/
def requestIds (as : List (Action P)) : List RequestId := as.flatMap actionRequestIds

/-- The keys that are unregistered when a request is done. -/
def ResourceKey.isRequestId : ResourceKey → Bool
  | .mcpRequestId _ => true
  | .progressToken _ => false

/-- The operations attach no request ids but `ids`, each once for each time it is listed, and
detach nothing but request ids. -/
structure UsesIds (ids : List RequestId) (ops : List RouterOp) : Prop where
  attached : ((Registry.attachedKeys ops).filter ResourceKey.isRequestId).Sublist
    (ids.map .mcpRequestId)
  detached : ∀ k, .detach k ∈ ops → k.isRequestId = true

theorem UsesIds.nil (ids : List RequestId) : UsesIds ids [] :=
  ⟨List.nil_sublist _, fun _ hk => nomatch hk⟩

theorem UsesIds.append {ids ids' : List RequestId} {ops ops' : List RouterOp}
    (h : UsesIds ids ops) (h' : UsesIds ids' ops') : UsesIds (ids ++ ids') (ops ++ ops') := by
  refine ⟨?_, fun k hk => ?_⟩
  · rw [Registry.attachedKeys_append, List.filter_append, List.map_append]
    exact h.attached.append h'.attached
  · rcases List.mem_append.mp hk with hk | hk
    · exact h.detached k hk
    · exact h'.detached k hk

theorem usesIds_detach (ids : List RequestId) (id : RequestId) :
    UsesIds ids [.detach (.mcpRequestId id)] := by
  refine ⟨List.nil_sublist _, fun k hk => ?_⟩
  obtain rfl := Registry.Op.detach.inj (List.mem_singleton.mp hk)
  rfl

theorem usesIds_requestOps (request : JsonRpcRequest P.ClientRequest) (h : HttpRequestId) :
    UsesIds [request.id] (requestOps request h) := by
  unfold requestOps
  split
  · exact ⟨List.Sublist.refl _, by simp⟩
  · exact ⟨List.Sublist.refl _, by simp⟩

theorem usesIds_itemOps (h : Option HttpRequestId)
    (item : JsonRpcBatchRequestItem P.ClientRequest ClientNotification) :
    UsesIds (itemRequestId? item).toList (itemOps h item) := by
  cases item with
  | request request =>
    cases h with
    | none => exact .nil _
    | some h => exact usesIds_requestOps request h
  | notification n =>
    simp only [itemOps]
    split
    · exact usesIds_detach _ _
    · exact .nil _

theorem usesIds_clientOps (h : Option HttpRequestId) (message : ClientJsonRpcMessage P) :
    UsesIds (clientRequestIds message) (clientOps h message) := by
  cases message with
  | request request => exact usesIds_itemOps h (.request request)
  | notification n => exact @usesIds_itemOps P h (.notification n)
  | batchRequest items =>
    simp only [clientOps, clientRequestIds]
    induction items with
    | nil => exact .nil _
    | cons item items ih =>
      have hboth := (usesIds_itemOps h item).append ih
      cases hid : itemRequestId? item <;> simpa [List.filterMap_cons, hid] using hboth
  | response _ => exact .nil _
  | batchResponse _ => exact .nil _
  | error _ => exact .nil _

theorem usesIds_handlerOps (message : ServerJsonRpcMessage P) :
    UsesIds [] (handlerOps message) := by
  cases message with
  | response r => exact usesIds_detach _ _
  | error e => exact usesIds_detach _ _
  | batchResponse items =>
    simp only [handlerOps]
    induction items with
    | nil => exact .nil _
    | cons item items ih => exact (usesIds_detach [] _).append ih
  | request _ => exact .nil _
  | notification _ => exact .nil _
  | batchRequest _ => exact .nil _

theorem usesIds_actionOps (next : HttpRequestId) (a : Action P) :
    UsesIds (actionRequestIds a) (actionOps next a) := by
  cases a with
  | httpService event =>
    cases event with
    | clientMessage message h => exact usesIds_clientOps h message
    | establishRequestWiseChannel => exact ⟨List.Sublist.refl _, by simp [actionOps]⟩
    | closeRequestWiseChannel id => exact ⟨List.Sublist.refl _, by simp [actionOps]⟩
    | _ => exact .nil _
  | handler message => exact usesIds_handlerOps message
  | _ => exact .nil _

theorem usesIds_routerTrace (next : HttpRequestId) (as : List (Action P)) :
    UsesIds (requestIds as) (routerTrace next as) := by
  induction as generalizing next with
  | nil => exact .nil _
  | cons a as ih => exact (usesIds_actionOps next a).append (ih _)

/-- A client that never reuses a request id keeps the discipline of the ledger. -/
theorem disciplined_routerTrace {as : List (Action P)} (hids : (requestIds as).Nodup) :
    Registry.Disciplined ResourceKey.isRequestId (routerTrace 0 as) := by
  have h := usesIds_routerTrace 0 as
  refine ⟨h.detached, h.attached.nodup (hids.map ?_)⟩
  intro id id' heq
  exact ResourceKey.mcpRequestId.inj heq

/-! ## Closing -/

/-- What happened to the channel `h` since it was last established. -/
def ledger (as : List (Action P)) (h : HttpRequestId) : Registry.Ledger ResourceKey :=
  (Registry.Tracked.empty.applyAll (routerTrace 0 as)).ledger h

/-- The request `id` was registered through `h`. -/
def Registered (as : List (Action P)) (h : HttpRequestId) (id : RequestId) : Prop :=
  .mcpRequestId id ∈ (ledger as h).attached

/-- The request `id` was registered through `h`, and neither answered nor cancelled since. -/
def Pending (as : List (Action P)) (h : HttpRequestId) (id : RequestId) : Prop :=
  .mcpRequestId id ∈ (ledger as h).held

instance (as : List (Action P)) (h : HttpRequestId) (id : RequestId) :
    Decidable (Registered as h id) := inferInstanceAs (Decidable (_ ∈ (ledger as h).attached))

instance (as : List (Action P)) (h : HttpRequestId) (id : RequestId) :
    Decidable (Pending as h id) := inferInstanceAs (Decidable (_ ∈ (ledger as h).held))

/-- Some request that was registered through `h` has a progress token. -/
def CarriesToken (as : List (Action P)) (h : HttpRequestId) : Prop :=
  ∃ token, .progressToken token ∈ (ledger as h).attached

/-- `CloseRequestWiseChannel` was issued for `h`. -/
def ClosedByHand (as : List (Action P)) (h : HttpRequestId) : Prop :=
  (ledger as h).closedByHand = true

/-- A channel whose requests are all answered or cancelled is closed exactly when it was
closed by hand or none of its requests has a progress token. -/
theorem channel_closed_iff {config : SessionConfig} {as : List (Action P)} {s : Vars P}
    (hrun : Runs config as s) (hids : (requestIds as).Nodup) {h : HttpRequestId}
    (hsome : ∃ id, Registered as h id) (hdone : ∀ id, Registered as h id → ¬ Pending as h id) :
    s.worker.txRouter.get h = none ↔ ClosedByHand as h ∨ ¬ CarriesToken as h := by
  have hops := disciplined_routerTrace hids
  obtain ⟨id, hid⟩ := hsome
  have hclosed := Registry.closed_iff hops (Finset.ne_empty_of_mem hid)
  have hagrees := Registry.agrees_applyAll hops h
  have hrouter : s.worker.txRouter.get h = none ↔
      (Registry.empty.applyAll (routerTrace 0 as)).members.get h = none := by
    rw [← hrun.registry]
    simp [SessionWorker.registry]
  -- what is still held are the tokens
  have hheld : (ledger as h).held = ∅ ↔ ¬ CarriesToken as h := by
    rw [Finset.eq_empty_iff_forall_notMem]
    constructor
    · rintro hempty ⟨token, htoken⟩
      exact hempty _ (hagrees.kept _ htoken rfl)
    · intro hnone k hk
      cases k with
      | mcpRequestId id => exact hdone id (hagrees.held_subset hk) hk
      | progressToken token => exact hnone ⟨token, hagrees.held_subset hk⟩
  rw [hrouter, hclosed, ← hheld]
  rfl

/-- Without a progress token: the channel of the answered request is closed. -/
theorem channel_closed_iff_answeredRun : ∃ s : Vars bare, Runs .default answeredRun s ∧
    (requestIds answeredRun).Nodup ∧ Registered answeredRun 0 (.number 1) ∧
    (s.worker.txRouter.get 0 = none ↔ ClosedByHand answeredRun 0 ∨ ¬ CarriesToken answeredRun 0) := by
  have hrun : ∃ s, Runs .default answeredRun s := ⟨_, Transition.run_of_exec rfl⟩
  obtain ⟨s, hrun⟩ := hrun
  have hids : (requestIds answeredRun).Nodup := by decide
  have hsome : Registered answeredRun 0 (.number 1) := by decide
  have hheld : (ledger answeredRun 0).held = ∅ := by decide
  have hdone : ∀ id, Registered answeredRun 0 id → ¬ Pending answeredRun 0 id := by
    intro id _ hpending
    simp [Pending, hheld] at hpending
  exact ⟨s, hrun, hids, hsome, channel_closed_iff hrun hids ⟨_, hsome⟩ hdone⟩

/-- A request with a progress token is posted on its own channel and answered. -/
def tokenRun : List (Action bare) :=
  handshake ++
    [.httpService .establishRequestWiseChannel,
      post 1 (Meta.staticEmpty.setProgressToken ⟨.number 7⟩) 0, .handler (answer 1)]

/-- Its channel is still open after the answer. -/
theorem channel_open_after_answer : ∃ s : Vars bare, Runs .default tokenRun s ∧
    (requestIds tokenRun).Nodup ∧ Registered tokenRun 0 (.number 1) ∧
    (∀ id, Registered tokenRun 0 id → ¬ Pending tokenRun 0 id) ∧
    s.worker.txRouter.get 0 ≠ none := by
  have hrun : ∃ s : Vars bare, Runs .default tokenRun s ∧ s.worker.txRouter.get 0 ≠ none :=
    ⟨_, Transition.run_of_exec rfl, by decide⟩
  obtain ⟨s, hrun, hopen⟩ := hrun
  have hheld : (ledger tokenRun 0).held = {.progressToken ⟨.number 7⟩} := by decide
  refine ⟨s, hrun, by decide, by decide, fun id _ hpending => ?_, hopen⟩
  simp [Pending, hheld] at hpending

/-! ## Staying open -/

theorem actionOps_closeGroup {next h : HttpRequestId} {a : Action P}
    (hclose : .closeGroup h ∈ actionOps next a) :
    a = .httpService (.closeRequestWiseChannel h) := by
  have hclient : ∀ item : JsonRpcBatchRequestItem P.ClientRequest ClientNotification, ∀ id,
      .closeGroup h ∉ itemOps id item := by
    intro item id hmem
    cases item with
    | request request =>
      cases id with
      | none => simp [itemOps] at hmem
      | some id =>
        simp only [itemOps, requestOps] at hmem
        split at hmem <;> simp at hmem
    | notification n =>
      simp only [itemOps] at hmem
      split at hmem <;> simp at hmem
  cases a with
  | httpService event =>
    cases event with
    | clientMessage message id =>
      cases message with
      | request request => exact absurd hclose (hclient (.request request) id)
      | notification n => exact absurd hclose (hclient (.notification n) id)
      | batchRequest items =>
        obtain ⟨item, -, hmem⟩ := List.mem_flatMap.mp hclose
        exact absurd hmem (hclient item id)
      | _ => simp [actionOps, clientOps] at hclose
    | closeRequestWiseChannel id =>
      simp only [actionOps, List.mem_singleton, Registry.Op.closeGroup.injEq] at hclose
      rw [hclose]
    | _ => simp [actionOps] at hclose
  | handler message =>
    cases message <;> simp [actionOps, handlerOps] at hclose
  | _ => simp [actionOps] at hclose

theorem routerTrace_closeGroup {next h : HttpRequestId} {as : List (Action P)}
    (hclose : .closeGroup h ∈ routerTrace next as) :
    .httpService (.closeRequestWiseChannel h) ∈ as := by
  induction as generalizing next with
  | nil => simp [routerTrace] at hclose
  | cons a as ih =>
    rcases List.mem_append.mp hclose with ha | has
    · rw [actionOps_closeGroup ha]
      exact List.mem_cons_self
    · exact List.mem_cons_of_mem _ (ih has)

/-- The request `id` was posted on the channel `h`, whether `h` was open then or not, and has
been neither answered nor cancelled since. -/
def Unfinished (as : List (Action P)) (h : HttpRequestId) (id : RequestId) : Prop :=
  .mcpRequestId id ∈ Registry.outstanding h (routerTrace 0 as)

/-- The operations of a list of actions, those of each action by themselves. -/
def routerBatches (next : HttpRequestId) : List (Action P) → List (List RouterOp)
  | [] => []
  | a :: as => actionOps next a :: routerBatches (nextAfter next a) as

/-- Every request that is posted on `h` finds `h` in the router when it is registered, unless a
later item of the same message cancels it. -/
def PostedWhileOpen (as : List (Action P)) (h : HttpRequestId) : Prop :=
  Registry.empty.EachAttachesOpen ResourceKey.isRequestId h (routerBatches 0 as)

/-- `h` is established only while no request is unfinished on it. -/
def EstablishedWhenDone (as : List (Action P)) (h : HttpRequestId) : Prop :=
  Registry.OpensSettled ResourceKey.isRequestId h ∅ (routerTrace 0 as)

/-- At every turn of the loop an unfinished request of `h` is routed to it, and `h` is open. -/
def StaysOpen (config : SessionConfig) (as : List (Action P)) (h : HttpRequestId) : Prop :=
  ∀ bs s, bs <+: as → Runs config bs s → ∀ id, Unfinished bs h id →
    s.worker.txRouter.get h ≠ none ∧ s.worker.resourceRouter.get (.mcpRequestId id) = some h

instance (as : List (Action P)) (h : HttpRequestId) (id : RequestId) :
    Decidable (Unfinished as h id) := inferInstanceAs (Decidable (_ ∈ Registry.outstanding h _))

instance (as : List (Action P)) (h : HttpRequestId) : Decidable (PostedWhileOpen as h) :=
  inferInstanceAs (Decidable (Registry.EachAttachesOpen ..))

instance (as : List (Action P)) (h : HttpRequestId) : Decidable (EstablishedWhenDone as h) :=
  inferInstanceAs (Decidable (Registry.OpensSettled ..))

theorem routerBatches_append (next : HttpRequestId) (as bs : List (Action P)) :
    routerBatches next (as ++ bs) =
      routerBatches next as ++ routerBatches (as.foldl nextAfter next) bs := by
  induction as generalizing next with
  | nil => rfl
  | cons a as ih => simp [routerBatches, ih]

theorem flatten_routerBatches (next : HttpRequestId) (as : List (Action P)) :
    (routerBatches next as).flatten = routerTrace next as := by
  induction as generalizing next with
  | nil => rfl
  | cons a as ih => simp [routerBatches, routerTrace, ih]

theorem postedWhileOpen_append {as bs : List (Action P)} {h : HttpRequestId} :
    PostedWhileOpen (as ++ bs) h ↔ PostedWhileOpen as h ∧
      (Registry.empty.applyAll (routerTrace 0 as)).EachAttachesOpen ResourceKey.isRequestId h
        (routerBatches (as.foldl nextAfter 0) bs) := by
  rw [PostedWhileOpen, routerBatches_append, Registry.eachAttachesOpen_append,
    flatten_routerBatches]
  rfl

theorem EstablishedWhenDone.of_append {as bs : List (Action P)} {h : HttpRequestId}
    (hdone : EstablishedWhenDone (as ++ bs) h) : EstablishedWhenDone as h := by
  rw [EstablishedWhenDone, routerTrace_append, Registry.opensSettled_append] at hdone
  exact hdone.1

/-- A request that was posted while its channel was open keeps it open until it is done. -/
theorem Runs.channel_open {config : SessionConfig} {as : List (Action P)} {s : Vars P}
    (hrun : Runs config as s) (hids : (requestIds as).Nodup) {h : HttpRequestId}
    (hclose : .httpService (.closeRequestWiseChannel h) ∉ as) (hposted : PostedWhileOpen as h)
    (hdone : EstablishedWhenDone as h) {id : RequestId} (hid : Unfinished as h id) :
    s.worker.txRouter.get h ≠ none ∧ s.worker.resourceRouter.get (.mcpRequestId id) = some h := by
  rw [Unfinished, ← flatten_routerBatches] at hid
  rw [EstablishedWhenDone, ← flatten_routerBatches] at hdone
  have hheld := Registry.held_of_outstanding hposted hdone hid rfl
  rw [flatten_routerBatches] at hheld
  obtain ⟨hopen, howner⟩ := Registry.open_of_held (disciplined_routerTrace hids) hheld
    fun hmem => hclose (routerTrace_closeGroup hmem)
  rw [← hrun.registry] at hopen howner
  refine ⟨fun hnone => hopen ?_, howner rfl⟩
  simp [SessionWorker.registry, hnone]

/-- Before the loop there are no operations. -/
theorem actionOps_handshake {st st' : State P} {a : Action P} {s' : Vars P}
    (hstep : step st a = some st') (hs' : st'.vars? = some s') (hnext : st' ≠ .running s')
    (next : HttpRequestId) : actionOps next a = [] := by
  cases st' with
  | awaitInitialize s =>
    obtain ⟨_, move, -, rfl, -⟩ := step_awaitInitialize hstep
    rfl
  | awaitInitializeResponse s =>
    rcases step_awaitInitializeResponse hstep with ⟨_, move, -, rfl⟩ | ⟨_, request, -, rfl, -⟩ <;>
      rfl
  | running s =>
    cases hs'
    exact absurd rfl hnext
  | quit reason | panicked => cases hs'

/-- A channel stays open for every request that is posted on it, until the request is done, if
the requests are posted while it is open. -/
theorem channel_stays_open {config : SessionConfig} {as : List (Action P)} {s : Vars P}
    (hrun : Runs config as s) (hids : (requestIds as).Nodup) {h : HttpRequestId}
    (hclose : .httpService (.closeRequestWiseChannel h) ∉ as) :
    (PostedWhileOpen as h → EstablishedWhenDone as h → StaysOpen config as h) ∧
      (StaysOpen config as h → PostedWhileOpen as h) := by
  constructor
  · rintro hposted hdone bs t ⟨cs, rfl⟩ hbs id hid
    refine hbs.channel_open ?_ (fun hmem => hclose (List.mem_append_left cs hmem))
      (postedWhileOpen_append.mp hposted).1 hdone.of_append hid
    rw [requestIds, List.flatMap_append] at hids
    exact List.Nodup.of_append_left hids
  · refine Transition.Run.invariant (P := fun as st => ∀ s, st.vars? = some s →
      (requestIds as).Nodup → StaysOpen config as h → PostedWhileOpen as h) hrun ?_ ?_ s rfl hids
    · exact fun _ _ _ _ => trivial
    intro as st st' a hbefore ih hstep s' hs' hids hstays
    obtain ⟨t, ht, -⟩ := step_session hstep hs'
    have hids' : (requestIds as).Nodup := by
      rw [requestIds, List.flatMap_append] at hids
      exact List.Nodup.of_append_left hids
    have hfirst := ih t ht hids' fun bs r hbs => hstays bs r (hbs.trans (List.prefix_append as [a]))
    refine postedWhileOpen_append.mpr ⟨hfirst, ?_, trivial⟩
    by_cases hnext : st' = .running s'
    · subst hnext
      have hafter : Runs config (as ++ [a]) s' := hbefore.snoc hstep
      have htrace : routerTrace 0 (as ++ [a]) =
          routerTrace 0 as ++ actionOps (as.foldl nextAfter 0) a := by
        rw [routerTrace_append]
        simp [routerTrace]
      refine Registry.attachesOpen_of_owner (htrace ▸ disciplined_routerTrace hids) ?_
      rw [← htrace]
      intro k hk hp
      cases k with
      | progressToken token => cases hp
      | mcpRequestId id =>
        rw [← hafter.registry]
        exact (hstays _ _ List.prefix_rfl hafter id hk).2
    · rw [actionOps_handshake hstep hs' hnext]
      trivial

/-- Two requests share a progress token on two channels, and the first one is answered. -/
def sharedTokenRun : List (Action bare) :=
  handshake ++
    [.httpService .establishRequestWiseChannel, .httpService .establishRequestWiseChannel,
      post 1 (Meta.staticEmpty.setProgressToken ⟨.number 7⟩) 0,
      post 2 (Meta.staticEmpty.setProgressToken ⟨.number 7⟩) 1, .handler (answer 1)]

theorem channel_stays_open_sharedTokenRun : ∃ s : Vars bare,
    Runs .default sharedTokenRun s ∧ (requestIds sharedTokenRun).Nodup ∧
    PostedWhileOpen sharedTokenRun 1 ∧ EstablishedWhenDone sharedTokenRun 1 ∧
    Unfinished sharedTokenRun 1 (.number 2) ∧ StaysOpen .default sharedTokenRun 1 := by
  have hrun : ∃ s, Runs .default sharedTokenRun s := ⟨_, Transition.run_of_exec rfl⟩
  obtain ⟨s, hrun⟩ := hrun
  have hids : (requestIds sharedTokenRun).Nodup := by decide
  have hclose : .httpService (.closeRequestWiseChannel 1) ∉ sharedTokenRun := by
    simp [sharedTokenRun, handshake, post]
  have hposted : PostedWhileOpen sharedTokenRun 1 := by decide
  have hdone : EstablishedWhenDone sharedTokenRun 1 := by decide
  exact ⟨s, hrun, hids, hposted, hdone, by decide,
    (channel_stays_open hrun hids hclose).1 hposted hdone⟩

/-- A batch on one channel: a request, its cancellation, and another request. -/
def cancelledInBatchRun : List (Action bare) :=
  handshake ++
    [.httpService .establishRequestWiseChannel,
      .httpService (.clientMessage (.batchRequest [.request ⟨.number 1, .staticEmpty⟩,
        .notification ⟨.cancelledNotification ⟨⟨.number 1, none⟩, ⟨none⟩⟩⟩,
        .request ⟨.number 2, .staticEmpty⟩]) (some 0))]

/-- The cancellation leaves the channel empty, so it is closed before the second request of the
batch is registered, which is then not registered at all. -/
theorem channel_closed_in_batch : ∃ s : Vars bare, Runs .default cancelledInBatchRun s ∧
    (requestIds cancelledInBatchRun).Nodup ∧
    .httpService (.closeRequestWiseChannel 0) ∉ cancelledInBatchRun ∧
    Unfinished cancelledInBatchRun 0 (.number 2) ∧
    s.worker.txRouter.get 0 = none ∧
    s.worker.resourceRouter.get (.mcpRequestId (.number 2)) = none := by
  have hrun : ∃ s : Vars bare, Runs .default cancelledInBatchRun s ∧
      s.worker.txRouter.get 0 = none ∧
      s.worker.resourceRouter.get (.mcpRequestId (.number 2)) = none :=
    ⟨_, Transition.run_of_exec rfl, rfl, rfl⟩
  obtain ⟨s, hrun, hclosed, hroute⟩ := hrun
  refine ⟨s, hrun, by decide, ?_, by decide, hclosed, hroute⟩
  simp [cancelledInBatchRun, handshake]

end Rmcp.Session
