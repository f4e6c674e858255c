import Rmcp.Session.Completion
import Rmcp.Session.Given
import Mathlib.Algebra.Group.Nat.Defs

/-!
# Clients that reuse nothing

A client that gives every request an id and a progress token of its own, and has no channel
closed, never makes two channels of a session share a key. Then the routers stay consistent, and
no message of the handler is refused.

Results:
1. `safeAll_routerTrace`: the operations of such a run are safe.
2. `Runs.delivers`: its routers are consistent, and every message finds its channel.
-/

namespace Rmcp.Session

variable {P : Payloads}

/-! ## The keys of a client -/

def requestKeys (request : JsonRpcRequest P.ClientRequest) : List ResourceKey :=
  .mcpRequestId request.id ::
    ((P.getMeta request.request).getProgressToken.map ResourceKey.progressToken).toList

def itemKeys : JsonRpcBatchRequestItem P.ClientRequest ClientNotification → List ResourceKey
  | .request request => requestKeys request
  | .notification _ => []

/-- The ids and the progress tokens of the requests of a message. -/
def messageKeys : ClientJsonRpcMessage P → List ResourceKey
  | .request request => requestKeys request
  | .batchRequest items => items.flatMap itemKeys
  | .response _ | .notification _ | .batchResponse _ | .error _ => []

def SessionEvent.establishes : SessionEvent P → Bool
  | .establishRequestWiseChannel => true
  | _ => false

/-- The keys of the messages that the loop has taken. -/
def actionKeys : Action P → List ResourceKey
  | .httpService (.clientMessage message _) => messageKeys message
  | _ => []

def Action.establishes : Action P → Bool
  | .httpService event => event.establishes
  | _ => false

/-! ## The operations -/

theorem attachedKeys_requestOps (request : JsonRpcRequest P.ClientRequest) (h : HttpRequestId) :
    Registry.attachedKeys (requestOps request h) = requestKeys request := by
  unfold requestOps requestKeys
  cases (P.getMeta request.request).getProgressToken <;> rfl

theorem attachedKeys_itemOps (h : Option HttpRequestId)
    (item : JsonRpcBatchRequestItem P.ClientRequest ClientNotification) :
    (Registry.attachedKeys (itemOps h item)).Sublist (itemKeys item) := by
  cases item with
  | request request =>
    cases h with
    | none => exact List.nil_sublist _
    | some h =>
      rw [itemOps, attachedKeys_requestOps]
      exact List.Sublist.refl _
  | notification n =>
    simp only [itemOps]
    split <;> exact List.Sublist.refl _

theorem attachedKeys_clientOps (h : Option HttpRequestId) (message : ClientJsonRpcMessage P) :
    (Registry.attachedKeys (clientOps h message)).Sublist (messageKeys message) := by
  cases message with
  | request request => exact attachedKeys_itemOps h (.request request)
  | notification n => exact attachedKeys_itemOps (P := P) h (.notification n)
  | batchRequest items =>
    simp only [clientOps, messageKeys]
    induction items with
    | nil => exact List.Sublist.refl _
    | cons item items ih =>
      rw [List.flatMap_cons, List.flatMap_cons, Registry.attachedKeys_append]
      exact (attachedKeys_itemOps h item).append ih
  | response _ | batchResponse _ | error _ => exact List.Sublist.refl _

theorem attachedKeys_handlerOps (message : ServerJsonRpcMessage P) :
    Registry.attachedKeys (handlerOps message) = [] := by
  cases message with
  | batchResponse items =>
    refine List.filterMap_eq_nil_iff.mpr fun op hop => ?_
    obtain ⟨item, -, rfl⟩ := List.mem_map.mp hop
    rfl
  | _ => rfl

theorem attachedKeys_actionOps (next : HttpRequestId) (a : Action P) :
    (Registry.attachedKeys (actionOps next a)).Sublist (actionKeys a) := by
  cases a with
  | httpService event =>
    cases event with
    | clientMessage message h => exact attachedKeys_clientOps h message
    | _ => exact List.Sublist.refl _
  | handler message =>
    rw [actionOps, attachedKeys_handlerOps]
    exact List.nil_sublist _
  | _ => exact List.Sublist.refl _

theorem attachedKeys_routerTrace (next : HttpRequestId) (as : List (Action P)) :
    (Registry.attachedKeys (routerTrace next as)).Sublist (as.flatMap actionKeys) := by
  induction as generalizing next with
  | nil => exact List.Sublist.refl _
  | cons a as ih =>
    rw [routerTrace, Registry.attachedKeys_append, List.flatMap_cons]
    exact (attachedKeys_actionOps next a).append (ih _)

theorem openedGroup?_itemOps (h : Option HttpRequestId)
    (item : JsonRpcBatchRequestItem P.ClientRequest ClientNotification) {op : RouterOp}
    (hop : op ∈ itemOps h item) : op.openedGroup? = none := by
  cases item with
  | request request =>
    cases h with
    | none => cases hop
    | some h =>
      simp only [itemOps, requestOps] at hop
      split at hop
      · rcases List.mem_cons.mp hop with rfl | hop
        · rfl
        · obtain rfl := List.mem_singleton.mp hop
          rfl
      · obtain rfl := List.mem_singleton.mp hop
        rfl
  | notification n =>
    simp only [itemOps] at hop
    split at hop
    · obtain rfl := List.mem_singleton.mp hop
      rfl
    · cases hop

/-- Only establishing a channel opens one. -/
theorem openedGroups_actionOps (next : HttpRequestId) (a : Action P) :
    Registry.openedGroups (actionOps next a) = if a.establishes then [next] else [] := by
  cases a with
  | httpService event =>
    cases event with
    | clientMessage message h =>
      refine List.filterMap_eq_nil_iff.mpr fun op hop => ?_
      cases message with
      | request request => exact openedGroup?_itemOps h (.request request) hop
      | notification n => exact @openedGroup?_itemOps P h (.notification n) _ hop
      | batchRequest items =>
        obtain ⟨item, -, hop⟩ := List.mem_flatMap.mp hop
        exact openedGroup?_itemOps h item hop
      | response _ | batchResponse _ | error _ => cases hop
    | _ => rfl
  | handler message =>
    refine List.filterMap_eq_nil_iff.mpr fun op hop => ?_
    cases message with
    | response | error =>
      obtain rfl := List.mem_singleton.mp hop
      rfl
    | batchResponse items =>
      obtain ⟨item, -, rfl⟩ := List.mem_map.mp hop
      rfl
    | request | notification | batchRequest => cases hop
  | _ => rfl

theorem nextAfter_eq (next : HttpRequestId) (a : Action P) :
    nextAfter next a = if a.establishes then next + 1 else next := by
  cases a with
  | httpService event => cases event <;> rfl
  | _ => rfl

/-- The counter of channels after a run. -/
theorem Runs.next_eq {config : SessionConfig} {as : List (Action P)} {s : Vars P}
    (hrun : Runs config as s) :
    s.worker.nextHttpRequestId = UInt64.ofNat (as.countP Action.establishes) := by
  refine hrun.invariant (I := fun as s =>
    s.worker.nextHttpRequestId = UInt64.ofNat (as.countP Action.establishes)) rfl ?_
  intro as s s' a hnext hstep
  rw [hstep.registry.2, nextAfter_eq, hnext, List.countP_append, List.countP_singleton]
  split
  · rw [UInt64.ofNat_add]
    rfl
  · rfl

/-- The channels of a run have the ids from the first one on. -/
theorem openedGroups_routerTrace (next : HttpRequestId) (as : List (Action P)) :
    Registry.openedGroups (routerTrace next as) =
      (List.range (as.countP Action.establishes)).map fun i => next + UInt64.ofNat i := by
  induction as generalizing next with
  | nil => rfl
  | cons a as ih =>
    rw [routerTrace, Registry.openedGroups_append, openedGroups_actionOps, ih, nextAfter_eq,
      List.countP_cons]
    cases a.establishes with
    | false => rfl
    | true =>
      simp only [if_true, List.range_succ_eq_map, List.map_cons, List.map_map,
        List.singleton_append]
      congr 1
      · simp
      · refine List.map_congr_left fun i _ => ?_
        show next + 1 + UInt64.ofNat i = next + UInt64.ofNat (i + 1)
        rw [UInt64.ofNat_add, UInt64.add_assoc, UInt64.add_comm 1]
        rfl

/-- The ids of channels are different until the counter has wrapped. -/
theorem nodup_openedGroups {as : List (Action P)} (h : as.countP Action.establishes ≤ 2 ^ 64) :
    (Registry.openedGroups (routerTrace 0 as)).Nodup := by
  rw [openedGroups_routerTrace]
  refine (List.nodup_map_iff_inj_on List.nodup_range).mpr fun i hi j hj heq => ?_
  have hlt : ∀ k ∈ List.range (as.countP Action.establishes), (UInt64.ofNat k).toNat = k := by
    intro k hk
    rw [UInt64.toNat_ofNat']
    exact Nat.mod_eq_of_lt (Nat.lt_of_lt_of_le (List.mem_range.mp hk) h)
  rw [UInt64.zero_add, UInt64.zero_add] at heq
  have heq' := congrArg UInt64.toNat heq
  rwa [hlt i hi, hlt j hj] at heq'

/-! ## Runs -/

/-- The operations of a client that uses every key once and closes no channel are safe. -/
theorem safeAll_routerTrace {as : List (Action P)} (hkeys : (as.flatMap actionKeys).Nodup)
    (hfew : as.countP Action.establishes ≤ 2 ^ 64)
    (hclose : ∀ h, .httpService (.closeRequestWiseChannel h) ∉ as) :
    Registry.empty.SafeAll (routerTrace 0 as) :=
  Registry.safeAll_of_nodup (nodup_openedGroups hfew) ((attachedKeys_routerTrace 0 as).nodup hkeys)
    fun h hmem => hclose h (routerTrace_closeGroup hmem)

/-- The loop has the keys of the messages that it has taken. -/
theorem actionKeys_sublist (as : List (Action P)) :
    (as.flatMap actionKeys).Sublist
      (((takenEvents as).filterMap (·.message?)).flatMap messageKeys) := by
  induction as with
  | nil => exact List.Sublist.refl _
  | cons a as ih =>
    cases a with
    | httpService event =>
      cases event with
      | clientMessage message h => exact (List.Sublist.refl _).append ih
      | initializeRequest message => exact ih.trans (List.sublist_append_right _ _)
      | _ => exact ih
    | _ => exact ih

theorem countP_establishes (as : List (Action P)) :
    as.countP Action.establishes = (takenEvents as).countP SessionEvent.establishes := by
  rw [takenEvents, List.countP_filterMap]
  refine List.countP_congr fun a _ => ?_
  cases a <;> simp [Action.establishes, Action.event?]

/-- When the operations of a run are safe, every message of the handler finds its channel. -/
theorem Runs.delivers {config : SessionConfig} {as : List (Action P)} {s : Vars P}
    (hrun : Runs config as s) (hsafe : Registry.empty.SafeAll (routerTrace 0 as)) :
    RouterConsistent s.worker ∧ ∀ message result s',
      s.fromHandler message = .ok (result, s') → result = .ok () := by
  have hconsistent : s.worker.registry.Consistent :=
    hrun.registry ▸ Registry.consistent_empty.applyAll hsafe
  refine ⟨(routerConsistent_iff _).mpr hconsistent, fun message result s' hmessage => ?_⟩
  obtain ⟨⟨result₁, worker, channels⟩, hhandle, hmessage⟩ := Exec.bind_eq_ok.mp hmessage
  cases hmessage
  refine handleServerMessage_delivers ?_ hhandle
  rw [routerConsistent_iff, (s.worker.rewired_catchResponse message).registry_eq]
  exact hconsistent.applyAll (handlerOps_safe message)

end Rmcp.Session
