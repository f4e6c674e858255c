import Rmcp.Model.Variants
import Rmcp.Service.Turn
import Mathlib.Algebra.Group.Nat.Defs

/-!
# The progress token of a request

`send_request_with_option` draws a token, sets it in the metadata of the request, and only then
extends the metadata by the caller's. The token comes to the peer with the params, and a request
without params is written without its metadata.

Results:
1. `Meta.get_extend`: a member of extended metadata.
2. `ClientRequest.progressTokenOf_serialize`, `ServerRequest.progressTokenOf_serialize`: the token
   that is on the wire, for every variant.
3. `progress_token_seen_iff`: when it is the token of the handle.
-/

namespace Rmcp

/-! ## Members of metadata -/

namespace JsonObject

theorem get_insert_of_ne {key key' : String} (value : Value) (o : JsonObject) (h : key ≠ key') :
    get key (insert key' value o) = get key o := by
  induction o with
  | nil => simp [insert, get, h]
  | cons m rest ih =>
    obtain ⟨k, v⟩ := m
    by_cases hk : key' = k
    · subst hk
      simp [insert, get, h]
    · by_cases hlt : key' < k <;> simp [insert, get, hk, hlt, ih, h]

theorem get_append (key : String) (o o' : JsonObject) :
    get key (o ++ o') = (get key o).or (get key o') := by
  induction o with
  | nil => rfl
  | cons m rest ih =>
    obtain ⟨k, v⟩ := m
    by_cases hk : key = k <;> simp [get, hk, ih]

end JsonObject

/-- The entries of `other` go before those of `m`, and the last of them before the others. -/
theorem Meta.get_extend (m other : Meta) (key : String) :
    JsonObject.get key (m.extend other).members =
      (JsonObject.get key other.members.reverse).or (JsonObject.get key m.members) := by
  obtain ⟨entries⟩ := other
  show JsonObject.get key (entries.foldl (fun members entry =>
    JsonObject.insert entry.1 entry.2 members) m.members) = _
  generalize m.members = members
  induction entries generalizing members with
  | nil => rfl
  | cons entry rest ih =>
    obtain ⟨k, v⟩ := entry
    rw [List.foldl_cons, ih, List.reverse_cons, JsonObject.get_append, Option.or_assoc]
    congr 1
    by_cases hk : key = k
    · subst hk
      simp [JsonObject.get]
    · simp [JsonObject.get, hk, JsonObject.get_insert_of_ne _ _ hk]

theorem Meta.get_setProgressToken (m : Meta) (token : ProgressToken) :
    JsonObject.get progressTokenField (m.setProgressToken token).members = some token.serialize := by
  obtain ⟨n | s⟩ := token <;> simp [setProgressToken, ProgressToken.serialize, NumberOrString.serialize]

/-! ## The token on the wire -/

/-- The members of an object. -/
def Value.asObject : Value → Option JsonObject
  | .object members => some members
  | _ => none

/-- `params._meta.progressToken`. -/
def progressTokenOf (request : JsonObject) : Option Value := do
  let params ← (← JsonObject.get "params" request).asObject
  let entries ← (← JsonObject.get "_meta" params).asObject
  JsonObject.get Meta.progressTokenField entries

open Serde

section SerdeImpl

variable {P : Type} {p : Fields P} {method : String} {m : Meta}

theorem Request.progressTokenOf_serialize {r : Request P} (h : r.extensions.metaEntry = some m) :
    progressTokenOf ((Request.fields method p).serialize r) =
      JsonObject.get Meta.progressTokenField m.members := by
  simp [progressTokenOf, Request.fields, Fields.tagged, Fields.imap, Fields.and, Fields.required,
    Fields.option, WithMeta.codec, Fields.flatten, JsonObject.get, Value.asObject, Meta.codec,
    Codec.imap, Codec.object, h]

theorem RequestOptionalParam.progressTokenOf_serialize {r : RequestOptionalParam P}
    (h : r.extensions.metaEntry = some m) :
    progressTokenOf ((RequestOptionalParam.fields method p).serialize r) =
      JsonObject.get Meta.progressTokenField m.members := by
  simp [progressTokenOf, RequestOptionalParam.fields, Fields.tagged, Fields.imap, Fields.and,
    Fields.required, Fields.option, WithMeta.codec, Fields.flatten, JsonObject.get, Value.asObject,
    Meta.codec, Codec.imap, Codec.object, h]

theorem RequestNoParam.progressTokenOf_serialize (r : RequestNoParam) :
    progressTokenOf ((RequestNoParam.fields method).serialize r) = none := by
  simp [progressTokenOf, RequestNoParam.fields, Fields.tagged, Fields.imap, Fields.and,
    Fields.required, Fields.nil, JsonObject.get]

end SerdeImpl

variable (L : Leaves)

namespace ClientRequest

def withExtensions (e : Extensions) : ClientRequest L → ClientRequest L
  | .pingRequest r => .pingRequest { r with extensions := e }
  | .initializeRequest r => .initializeRequest { r with extensions := e }
  | .completeRequest r => .completeRequest { r with extensions := e }
  | .setLevelRequest r => .setLevelRequest { r with extensions := e }
  | .getPromptRequest r => .getPromptRequest { r with extensions := e }
  | .listPromptsRequest r => .listPromptsRequest { r with extensions := e }
  | .listResourcesRequest r => .listResourcesRequest { r with extensions := e }
  | .listResourceTemplatesRequest r => .listResourceTemplatesRequest { r with extensions := e }
  | .readResourceRequest r => .readResourceRequest { r with extensions := e }
  | .subscribeRequest r => .subscribeRequest { r with extensions := e }
  | .unsubscribeRequest r => .unsubscribeRequest { r with extensions := e }
  | .callToolRequest r => .callToolRequest { r with extensions := e }
  | .listToolsRequest r => .listToolsRequest { r with extensions := e }

/-- `RequestNoParam` is the type of a ping. -/
def HasParams : ClientRequest L → Prop
  | .pingRequest _ => False
  | _ => True

theorem progressTokenOf_serialize (r : ClientRequest L) (m : Meta) (v : Value) :
    progressTokenOf ((r.withExtensions L ⟨some m⟩).serialize L) = some v ↔
      r.HasParams L ∧ JsonObject.get Meta.progressTokenField m.members = some v := by
  have hparams {o : JsonObject}
      (h : progressTokenOf o = JsonObject.get Meta.progressTokenField m.members) :
      progressTokenOf o = some v ↔
        True ∧ JsonObject.get Meta.progressTokenField m.members = some v := by
    rw [h, true_and]
  cases r with
  | pingRequest r =>
    have hnone : progressTokenOf (PingRequest.fields.serialize { r with extensions := ⟨some m⟩ }) =
        none := RequestNoParam.progressTokenOf_serialize _
    exact iff_of_false (fun h => by cases hnone.symm.trans h) fun h => h.1
  | listPromptsRequest | listResourcesRequest | listResourceTemplatesRequest | listToolsRequest =>
    exact hparams (RequestOptionalParam.progressTokenOf_serialize rfl)
  | _ => exact hparams (Request.progressTokenOf_serialize rfl)

end ClientRequest

namespace ServerRequest

def extensions : ServerRequest L → Extensions
  | .pingRequest r => r.extensions
  | .createMessageRequest r => r.extensions
  | .listRootsRequest r => r.extensions

def withExtensions (e : Extensions) : ServerRequest L → ServerRequest L
  | .pingRequest r => .pingRequest { r with extensions := e }
  | .createMessageRequest r => .createMessageRequest { r with extensions := e }
  | .listRootsRequest r => .listRootsRequest { r with extensions := e }

/-- `RequestNoParam` is the type of a ping and of a list of the roots. -/
def HasParams : ServerRequest L → Prop
  | .createMessageRequest _ => True
  | .pingRequest _ | .listRootsRequest _ => False

theorem progressTokenOf_serialize (r : ServerRequest L) (m : Meta) (v : Value) :
    progressTokenOf ((r.withExtensions L ⟨some m⟩).serialize L) = some v ↔
      r.HasParams L ∧ JsonObject.get Meta.progressTokenField m.members = some v := by
  have hnone {method : String} {r : RequestNoParam} :
      progressTokenOf ((RequestNoParam.fields method).serialize r) = some v ↔
        False ∧ JsonObject.get Meta.progressTokenField m.members = some v := by
    simp [RequestNoParam.progressTokenOf_serialize]
  cases r with
  | pingRequest | listRootsRequest => exact hnone
  | createMessageRequest r =>
    have hparams : progressTokenOf ((CreateMessageRequest.fields L).serialize
        { r with extensions := ⟨some m⟩ }) = JsonObject.get Meta.progressTokenField m.members :=
      Request.progressTokenOf_serialize rfl
    exact (iff_of_eq (congrArg (· = some v) hparams)).trans (and_iff_right trivial).symm

end ServerRequest

/-! ## The two roles -/

namespace Service

/-- `get_meta_mut` makes the entry that it finds missing. -/
abbrev roleClient : ServiceRole where
  Req := ClientRequest L
  Resp := ClientResult L
  Not := ClientNotification
  PeerReq := ServerRequest L
  PeerResp := ServerResult L
  PeerNot := ServerNotification
  getMeta r := (r.extensions L).getMeta
  setMeta m r := r.withExtensions L ⟨some m⟩
  peerMeta r := (r.extensions L).getMeta
  peerExtensions r := r.extensions L
  tryIntoCancelled := ClientNotification.tryIntoCancelled
  ofCancelled := .cancelledNotification
  peerTryIntoCancelled := ServerNotification.tryIntoCancelled
  peerOfCancelled := .cancelledNotification

abbrev roleServer : ServiceRole where
  Req := ServerRequest L
  Resp := ServerResult L
  Not := ServerNotification
  PeerReq := ClientRequest L
  PeerResp := ClientResult L
  PeerNot := ClientNotification
  getMeta r := (r.extensions L).getMeta
  setMeta m r := r.withExtensions L ⟨some m⟩
  peerMeta r := (r.extensions L).getMeta
  peerExtensions r := r.extensions L
  tryIntoCancelled := ServerNotification.tryIntoCancelled
  ofCancelled := .cancelledNotification
  peerTryIntoCancelled := ClientNotification.tryIntoCancelled
  peerOfCancelled := .cancelledNotification

/-- How the requests of a role are written, and which of them are written with their metadata. -/
structure WireRequests (R : ServiceRole) where
  serialize : R.Req → JsonObject
  HasParams : R.Req → Prop
  progressTokenOf_serialize : ∀ (r : R.Req) (m : Meta) (v : Value),
    progressTokenOf (serialize (R.setMeta m r)) = some v ↔
      HasParams r ∧ JsonObject.get Meta.progressTokenField m.members = some v

inductive Side
  | client
  | server

abbrev Side.role (L : Leaves) : Side → ServiceRole
  | .client => roleClient L
  | .server => roleServer L

def Side.requests (L : Leaves) : (side : Side) → WireRequests (side.role L)
  | .client =>
    ⟨ClientRequest.serialize L, ClientRequest.HasParams L, ClientRequest.progressTokenOf_serialize L⟩
  | .server =>
    ⟨ServerRequest.serialize L, ServerRequest.HasParams L, ServerRequest.progressTokenOf_serialize L⟩

/-! ## The token that the caller holds -/

variable {R : ServiceRole} {E : Type}

structure RequestHandle where
  id : RequestId
  progressToken : ProgressToken
  options : PeerRequestOptions

namespace Serve

/-- The handle that a call of `send_request_with_option` gets when its request is queued. -/
def requestHandle (s : Serve R E) (options : PeerRequestOptions) : RequestHandle :=
  ⟨.number s.nextRequestId, ⟨.number s.nextProgressToken⟩, options⟩

/-- The request that this call queues. -/
def queuedRequest (s : Serve R E) (request : R.Req) (options : PeerRequestOptions) :
    Option R.Req :=
  match (s.drawRequestId request options).callers.getLast? with
  | some (.request request _ _) => some request
  | _ => none

/-- The token of the handle is the one that is on the wire. -/
def TokenSeen (W : WireRequests R) (s : Serve R E) (request : R.Req)
    (options : PeerRequestOptions) : Prop :=
  ∃ queued, s.queuedRequest request options = some queued ∧
    progressTokenOf (W.serialize queued) = some (s.requestHandle options).progressToken.serialize

/-- The request is one with params, and the metadata of the caller have no other token. An object
has each key once, so the last entry with it is the only one. -/
def TokenKept (W : WireRequests R) (s : Serve R E) (request : R.Req)
    (options : PeerRequestOptions) : Prop :=
  W.HasParams request ∧ ∀ entries ∈ options.metaEntry, ∀ v ∈
    JsonObject.get Meta.progressTokenField entries.members.reverse,
      v = ProgressToken.serialize ⟨.number s.nextProgressToken⟩

theorem tokenSeen_iff (W : WireRequests R) (s : Serve R E) (request : R.Req)
    (options : PeerRequestOptions) :
    s.TokenSeen W request options ↔ s.TokenKept W request options := by
  let token : ProgressToken := ⟨.number s.nextProgressToken⟩
  let withToken : Meta := (R.getMeta request).setProgressToken token
  let sent : Meta := options.metaEntry.elim withToken withToken.extend
  have hqueued : s.queuedRequest request options = some (R.setMeta sent request) := by
    cases hmeta : options.metaEntry <;>
      simp [queuedRequest, drawRequestId, hmeta, sent, withToken, token]
  have hseen : s.TokenSeen W request options ↔ W.HasParams request ∧
      JsonObject.get Meta.progressTokenField sent.members = some token.serialize := by
    simp only [TokenSeen, hqueued, Option.some.injEq, exists_eq_left']
    exact W.progressTokenOf_serialize request sent token.serialize
  have htoken := (R.getMeta request).get_setProgressToken token
  rw [hseen, TokenKept]
  refine and_congr_right fun _ => ?_
  cases hmeta : options.metaEntry with
  | none => simpa [sent, hmeta] using htoken
  | some entries =>
    simp only [sent, hmeta, Option.elim_some, Meta.get_extend]
    rw [htoken]
    simp only [Option.mem_def, Option.some.injEq, forall_eq']
    cases JsonObject.get Meta.progressTokenField entries.members.reverse <;> simp [token]

/-! ## The tokens of different requests -/

/-- Only a call of `send_request_with_option` draws a token. -/
theorem background_cases {s s' : Serve R E} {a : Action R E} (h : s.background a = some s') :
    (∃ request options, a = .requestCalled request options ∧ s' = s.drawRequestId request options) ∨
      (s'.requestCalls = s.requestCalls ∧ s'.nextProgressToken = s.nextProgressToken) := by
  cases background_step h with
  | requestCalled request options => exact .inl ⟨request, options, rfl, rfl⟩
  | _ => exact .inr ⟨rfl, rfl⟩

end Serve

theorem Taken.nextProgressToken_eq {s s₀ : Serve R E} {e : Event R E} (h : Taken s e s₀) :
    s₀.requestCalls = s.requestCalls ∧ s₀.nextProgressToken = s.nextProgressToken := by
  cases h <;> exact ⟨rfl, rfl⟩

theorem loop_nextProgressToken {s s' : Serve R E} {a : Action R E} (h : s.loop a = some s') :
    s'.requestCalls = s.requestCalls ∧ s'.nextProgressToken = s.nextProgressToken := by
  rcases loop_turn h with ⟨e, s₀, htaken, rfl⟩ | ⟨reason, rfl⟩
  · obtain ⟨hcalls, htoken⟩ := htaken.nextProgressToken_eq
    exact ⟨(s₀.turn_spec e).requestCalls_eq.trans hcalls,
      (s₀.turn_tasks e).nextProgressToken_eq.trans htoken⟩
  · exact ⟨rfl, rfl⟩

/-- The handles of the requests. -/
def handles (s : Serve R E) : Action R E → List RequestHandle
  | .requestCalled _ options => [s.requestHandle options]
  | _ => []

/-- A step is a call of `send_request_with_option`, or draws no token. -/
theorem step_handles {s s' : Serve R E} {a : Action R E} (h : step s a = some s') :
    (∃ options, handles s a = [s.requestHandle options] ∧
      s'.requestCalls = s.requestCalls + 1 ∧ s'.nextProgressToken = s.nextProgressToken + 1) ∨
    (handles s a = [] ∧ s'.requestCalls = s.requestCalls ∧
      s'.nextProgressToken = s.nextProgressToken) := by
  cases a with
  | requestCalled request options =>
    cases h
    exact .inl ⟨options, rfl, rfl, rfl⟩
  | _ =>
    refine .inr ⟨rfl, ?_⟩
    rcases background_or_loop h with hbackground | ⟨-, -, hloop⟩
    · rcases Serve.background_cases hbackground with ⟨_, _, heq, -⟩ | hkept
      · cases heq
      · exact hkept
    · exact loop_nextProgressToken hloop

/-- The tokens of the handles count on from the first one. -/
theorem Runs.tokens {first token : UInt32} {as : List (Action R E)} {s : Serve R E}
    (hrun : Runs first token as s) :
    s.nextProgressToken = token + UInt32.ofNat s.requestCalls ∧
      (Transition.observe step handles (Serve.start first token) as).map (·.progressToken) =
        (List.range s.requestCalls).map fun k => ⟨.number (token + UInt32.ofNat k)⟩ := by
  refine hrun.invariant (P := fun as s =>
    s.nextProgressToken = token + UInt32.ofNat s.requestCalls ∧
      (Transition.observe step handles (Serve.start first token) as).map (·.progressToken) =
        (List.range s.requestCalls).map fun k => ⟨.number (token + UInt32.ofNat k)⟩) ?_ ?_
  · exact ⟨by simp [Serve.start], rfl⟩
  · intro as s s' a hrun ⟨hnext, htokens⟩ hstep
    rw [Transition.Run.observe_concat hrun hstep, List.map_append, htokens]
    rcases step_handles hstep with ⟨options, hhandles, hcalls, htoken⟩ | ⟨hhandles, hcalls, htoken⟩
    · rw [hhandles, hcalls, htoken, List.range_succ]
      refine ⟨?_, ?_⟩
      · rw [hnext, UInt32.ofNat_add, UInt32.add_assoc]
        rfl
      · simp [Serve.requestHandle, hnext]
    · rw [hhandles, hcalls, htoken]
      exact ⟨hnext, by simp⟩

/-- The tokens of different requests differ, and the token of a handle is the one that is on the
wire iff the request is written with its metadata and these carry no other token. -/
theorem progress_token_seen_iff (L : Leaves) (side : Side) {first token : UInt32}
    {as : List (Action (side.role L) E)} {s : Serve (side.role L) E}
    (hrun : Runs first token as s) (hdrawn : s.requestCalls ≤ 2 ^ 32) :
    ((Transition.observe step handles (Serve.start first token) as).map (·.progressToken)).Nodup ∧
      ∀ request options, s.TokenSeen (side.requests L) request options ↔
        s.TokenKept (side.requests L) request options := by
  refine ⟨?_, fun request options => s.tokenSeen_iff _ request options⟩
  rw [hrun.tokens.2]
  refine List.Nodup.map_on ?_ List.nodup_range
  intro i hi j hj heq
  have hi' : i < 2 ^ 32 := (List.mem_range.mp hi).trans_le hdrawn
  have hj' : j < 2 ^ 32 := (List.mem_range.mp hj).trans_le hdrawn
  rw [ProgressToken.mk.injEq, NumberOrString.number.injEq, UInt32.add_right_inj,
    ← UInt32.toNat_inj, UInt32.toNat_ofNat_of_lt' hi', UInt32.toNat_ofNat_of_lt' hj'] at heq
  exact heq

/-- A call of a tool by the name of `echo`. -/
abbrev echoRequest : ClientRequest plainLeaves := .callToolRequest ⟨⟨"echo", none⟩, ⟨none⟩⟩

abbrev pingRequest : ClientRequest plainLeaves := .pingRequest ⟨⟨none⟩⟩

/-- The metadata of a caller who has a token of their own. -/
abbrev ownToken : PeerRequestOptions := ⟨some ⟨[("progressToken", .string "mine")]⟩⟩

theorem progress_token_seen_iff_echoRun :
    ((Transition.observe step handles (Serve.start 0 0)
        [(.requestCalled echoRequest ⟨none⟩ : Action (Side.client.role plainLeaves) Unit)]).map
          (·.progressToken)).Nodup ∧
      ∀ request options, ((Serve.start 0 0 : Serve (Side.client.role plainLeaves) Unit).drawRequestId
          echoRequest ⟨none⟩).TokenSeen (Side.client.requests plainLeaves) request options ↔
        ((Serve.start 0 0 : Serve (Side.client.role plainLeaves) Unit).drawRequestId
          echoRequest ⟨none⟩).TokenKept (Side.client.requests plainLeaves) request options :=
  progress_token_seen_iff plainLeaves .client (Transition.run_of_exec rfl) (by decide)

/-- The token of a ping is not written, and that of a request with a token of its own is lost. -/
theorem progress_token_lost :
    ¬ (Serve.start 0 0 : Serve (Side.client.role plainLeaves) Unit).TokenSeen
        (Side.client.requests plainLeaves) pingRequest ⟨none⟩ ∧
      ¬ (Serve.start 0 0 : Serve (Side.client.role plainLeaves) Unit).TokenSeen
        (Side.client.requests plainLeaves) echoRequest ownToken := by
  constructor
  · rintro ⟨queued, hqueued, htoken⟩
    cases hqueued
    cases htoken
  · rintro ⟨queued, hqueued, htoken⟩
    cases hqueued
    cases htoken

end Service

end Rmcp
