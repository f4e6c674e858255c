import Rmcp.Model.Kinds

/-!
# The variants of the unions

Each union of requests, notifications or results reads what it wrote as the same variant,
provided that the params or the result of that variant are read again by their own struct. A
list request needs nothing of its params: params that are not read are dropped.
-/

namespace Rmcp

open Serde

/-! ## Requests and notifications -/

section SerdeImpl

variable {P : Type} {p : Fields P} {method : String}

/-- The metadata stands beside the params, and neither is read as the other. -/
theorem WithMeta.acceptsAt {rest : Flat P} {m : Option Meta} {params : P}
    (hread : ∃ params', rest.deserialize (rest.serialize params) = some params')
    (hnames : ∀ member ∈ rest.serialize params, member.1 ≠ "_meta") :
    (WithMeta.codec rest).AcceptsAt (m, params) := by
  have hmeta : (Fields.optional "_meta" Meta.codec).AcceptsAt m :=
    Fields.option_acceptsAt fun m _ => ⟨m, rfl⟩
  exact hmeta.flatten hread fun member hmem => by simpa [Fields.option] using hnames member hmem

theorem WithMeta.acceptsAt_fields {m : Option Meta} {params : P} (h : p.AcceptsAt params)
    (hmeta : "_meta" ∉ p.names) : (WithMeta.codec p.flat).AcceptsAt (m, params) :=
  WithMeta.acceptsAt h fun member hmem heq => hmeta (heq ▸ p.mem_names params member hmem)

/-- What `serde_impl` writes: a struct with a method and perhaps params. -/
structure IsMethod {R : Type} (f : Fields R) (method : String) : Prop where
  tagged : f.Tagged "method" method
  names : ∀ name ∈ f.names, name ∈ ["method", "params"]

theorem IsMethod.mem {R : Type} {f : Fields R} (hf : IsMethod f method) (r : R) :
    ∀ m ∈ f.serialize r, m.1 ∈ ["method", "params"] :=
  fun m hm => hf.names _ (f.mem_names r m hm)

theorem Request.isMethod : IsMethod (Request.fields method p) method where
  tagged := Fields.tagged_tagged (by simp [Fields.imap, Fields.required])
  names _ h := h

theorem RequestOptionalParam.isMethod : IsMethod (RequestOptionalParam.fields method p) method where
  tagged := Fields.tagged_tagged (by simp [Fields.imap, Fields.option])
  names _ h := h

theorem RequestNoParam.isMethod : IsMethod (RequestNoParam.fields method) method where
  tagged := Fields.tagged_tagged List.not_mem_nil
  names _ h := List.mem_cons.mpr (.inl (List.mem_singleton.mp h))

theorem Notification.isMethod : IsMethod (Notification.fields method p) method where
  tagged := Fields.tagged_tagged (by simp [Fields.imap, Fields.required])
  names _ h := h

theorem NotificationNoParam.isMethod : IsMethod (NotificationNoParam.fields method) method where
  tagged := Fields.tagged_tagged List.not_mem_nil
  names _ h := List.mem_cons.mpr (.inl (List.mem_singleton.mp h))

theorem Request.acceptsAt {r : Request P} (h : p.AcceptsAt r.params) (hmeta : "_meta" ∉ p.names) :
    (Request.fields method p).AcceptsAt r := by
  refine Fields.AcceptsAt.tagged (Fields.AcceptsAt.imap ?_) (by simp [Fields.imap, Fields.required])
  exact Codec.AcceptsAt.required (WithMeta.acceptsAt_fields h hmeta)

/-- Params that are not read again are read as none. -/
theorem RequestOptionalParam.acceptsAt {r : RequestOptionalParam P} (hmeta : "_meta" ∉ p.names) :
    (RequestOptionalParam.fields method p).AcceptsAt r := by
  refine Fields.AcceptsAt.tagged (Fields.AcceptsAt.imap ?_) (by simp [Fields.imap, Fields.option])
  refine Fields.option_acceptsAt fun body hbody => ?_
  cases hbody
  refine WithMeta.acceptsAt ⟨_, rfl⟩ fun member hmem heq => ?_
  cases hparams : r.params with
  | none => simp [Flat.option, hparams] at hmem
  | some params =>
    have hmem : member ∈ p.serialize params := by
      simpa [Flat.option, Fields.flat, hparams] using hmem
    exact hmeta (heq ▸ p.mem_names _ _ hmem)

theorem RequestNoParam.acceptsAt {r : RequestNoParam} :
    (RequestNoParam.fields method).AcceptsAt r :=
  Fields.AcceptsAt.tagged ⟨_, rfl⟩ List.not_mem_nil

theorem Notification.acceptsAt {n : Notification P} (h : p.AcceptsAt n.params)
    (hmeta : "_meta" ∉ p.names) : (Notification.fields method p).AcceptsAt n := by
  refine Fields.AcceptsAt.tagged (Fields.AcceptsAt.imap ?_) (by simp [Fields.imap, Fields.required])
  exact Codec.AcceptsAt.required (WithMeta.acceptsAt_fields h hmeta)

theorem NotificationNoParam.acceptsAt {n : NotificationNoParam} :
    (NotificationNoParam.fields method).AcceptsAt n :=
  Fields.AcceptsAt.tagged ⟨_, rfl⟩ List.not_mem_nil

end SerdeImpl

variable {L : Leaves}

namespace ClientRequest

/-- The params of the request are read again by their own struct. -/
def LeafAccepts : ClientRequest L → Prop
  | .initializeRequest r => (InitializeRequestParam.fields L).AcceptsAt r.params
  | .completeRequest r => (CompleteRequestParam.fields L).AcceptsAt r.params
  | .setLevelRequest r => SetLevelRequestParam.fields.AcceptsAt r.params
  | .getPromptRequest r => GetPromptRequestParam.fields.AcceptsAt r.params
  | .readResourceRequest r => ReadResourceRequestParam.fields.AcceptsAt r.params
  | .subscribeRequest r => SubscribeRequestParam.fields.AcceptsAt r.params
  | .unsubscribeRequest r => UnsubscribeRequestParam.fields.AcceptsAt r.params
  | .callToolRequest r => CallToolRequestParam.fields.AcceptsAt r.params
  | .pingRequest _ | .listPromptsRequest _ | .listResourcesRequest _
  | .listResourceTemplatesRequest _ | .listToolsRequest _ => True

def methods : List String :=
  ["ping", "initialize", "completion/complete", "logging/setLevel", "prompts/get", "prompts/list",
   "resources/list", "resources/templates/list", "resources/read", "resources/subscribe",
   "resources/unsubscribe", "tools/call", "tools/list"]

theorem methods_nodup : methods.Nodup := by decide

theorem readsTag : List.Forall₂ (ReadsTag "method") (alternatives L) methods :=
  .cons RequestNoParam.isMethod.tagged.readsTag <| .cons Request.isMethod.tagged.readsTag <|
  .cons Request.isMethod.tagged.readsTag <| .cons Request.isMethod.tagged.readsTag <|
  .cons Request.isMethod.tagged.readsTag <|
  .cons RequestOptionalParam.isMethod.tagged.readsTag <|
  .cons RequestOptionalParam.isMethod.tagged.readsTag <|
  .cons RequestOptionalParam.isMethod.tagged.readsTag <|
  .cons Request.isMethod.tagged.readsTag <| .cons Request.isMethod.tagged.readsTag <|
  .cons Request.isMethod.tagged.readsTag <| .cons Request.isMethod.tagged.readsTag <|
  .cons RequestOptionalParam.isMethod.tagged.readsTag .nil

theorem methodUnion : MethodUnion (flat L) where
  names r := by
    cases r with
    | pingRequest r => exact RequestNoParam.isMethod.mem r
    | initializeRequest r => exact Request.isMethod.mem r
    | completeRequest r => exact Request.isMethod.mem r
    | setLevelRequest r => exact Request.isMethod.mem r
    | getPromptRequest r => exact Request.isMethod.mem r
    | listPromptsRequest r => exact RequestOptionalParam.isMethod.mem r
    | listResourcesRequest r => exact RequestOptionalParam.isMethod.mem r
    | listResourceTemplatesRequest r => exact RequestOptionalParam.isMethod.mem r
    | readResourceRequest r => exact Request.isMethod.mem r
    | subscribeRequest r => exact Request.isMethod.mem r
    | unsubscribeRequest r => exact Request.isMethod.mem r
    | callToolRequest r => exact Request.isMethod.mem r
    | listToolsRequest r => exact RequestOptionalParam.isMethod.mem r
  needs _ h := untagged_of_no_tag readsTag h

theorem keepsAt {r : ClientRequest L} (h : r.LeafAccepts) :
    (flat L).KeepsAt ClientRequest.ctorIdx r := by
  cases r with
  | pingRequest r =>
    exact untagged_keeps_of_tag 0 readsTag methods_nodup rfl rfl RequestNoParam.isMethod.tagged
      RequestNoParam.acceptsAt fun _ => rfl
  | initializeRequest r =>
    have hmeta : "_meta" ∉ ["protocolVersion", "capabilities", "clientInfo"] := by decide
    exact untagged_keeps_of_tag 1 readsTag methods_nodup rfl rfl Request.isMethod.tagged
      (Request.acceptsAt h hmeta) fun _ => rfl
  | completeRequest r =>
    have hmeta : "_meta" ∉ ["ref", "argument"] := by decide
    exact untagged_keeps_of_tag 2 readsTag methods_nodup rfl rfl Request.isMethod.tagged
      (Request.acceptsAt h hmeta) fun _ => rfl
  | setLevelRequest r =>
    exact untagged_keeps_of_tag 3 readsTag methods_nodup rfl rfl Request.isMethod.tagged
      (Request.acceptsAt h (by decide)) fun _ => rfl
  | getPromptRequest r =>
    exact untagged_keeps_of_tag 4 readsTag methods_nodup rfl rfl Request.isMethod.tagged
      (Request.acceptsAt h (by decide)) fun _ => rfl
  | listPromptsRequest r =>
    exact untagged_keeps_of_tag 5 readsTag methods_nodup rfl rfl
      RequestOptionalParam.isMethod.tagged (RequestOptionalParam.acceptsAt (by decide)) fun _ => rfl
  | listResourcesRequest r =>
    exact untagged_keeps_of_tag 6 readsTag methods_nodup rfl rfl
      RequestOptionalParam.isMethod.tagged (RequestOptionalParam.acceptsAt (by decide)) fun _ => rfl
  | listResourceTemplatesRequest r =>
    exact untagged_keeps_of_tag 7 readsTag methods_nodup rfl rfl
      RequestOptionalParam.isMethod.tagged (RequestOptionalParam.acceptsAt (by decide)) fun _ => rfl
  | readResourceRequest r =>
    exact untagged_keeps_of_tag 8 readsTag methods_nodup rfl rfl Request.isMethod.tagged
      (Request.acceptsAt h (by decide)) fun _ => rfl
  | subscribeRequest r =>
    exact untagged_keeps_of_tag 9 readsTag methods_nodup rfl rfl Request.isMethod.tagged
      (Request.acceptsAt h (by decide)) fun _ => rfl
  | unsubscribeRequest r =>
    exact untagged_keeps_of_tag 10 readsTag methods_nodup rfl rfl Request.isMethod.tagged
      (Request.acceptsAt h (by decide)) fun _ => rfl
  | callToolRequest r =>
    exact untagged_keeps_of_tag 11 readsTag methods_nodup rfl rfl Request.isMethod.tagged
      (Request.acceptsAt h (by decide)) fun _ => rfl
  | listToolsRequest r =>
    exact untagged_keeps_of_tag 12 readsTag methods_nodup rfl rfl
      RequestOptionalParam.isMethod.tagged (RequestOptionalParam.acceptsAt (by decide)) fun _ => rfl

end ClientRequest

namespace ServerRequest

/-- The params of the request are read again by their own struct. -/
def LeafAccepts : ServerRequest L → Prop
  | .createMessageRequest r => (CreateMessageRequestParam.fields L).AcceptsAt r.params
  | .pingRequest _ | .listRootsRequest _ => True

def methods : List String :=
  ["ping", "sampling/createMessage", "roots/list"]

theorem methods_nodup : methods.Nodup := by decide

theorem readsTag : List.Forall₂ (ReadsTag "method") (alternatives L) methods :=
  .cons RequestNoParam.isMethod.tagged.readsTag <|
  .cons Request.isMethod.tagged.readsTag <|
  .cons RequestNoParam.isMethod.tagged.readsTag .nil

theorem methodUnion : MethodUnion (flat L) where
  names r := by
    cases r with
    | pingRequest r => exact RequestNoParam.isMethod.mem r
    | createMessageRequest r => exact Request.isMethod.mem r
    | listRootsRequest r => exact RequestNoParam.isMethod.mem r
  needs _ h := untagged_of_no_tag readsTag h

theorem keepsAt {r : ServerRequest L} (h : r.LeafAccepts) :
    (flat L).KeepsAt ServerRequest.ctorIdx r := by
  cases r with
  | pingRequest r =>
    exact untagged_keeps_of_tag 0 readsTag methods_nodup rfl rfl RequestNoParam.isMethod.tagged
      RequestNoParam.acceptsAt fun _ => rfl
  | createMessageRequest r =>
    have hmeta : "_meta" ∉ ["messages", "modelPreferences", "systemPrompt", "includeContext",
        "temperature", "maxTokens", "stopSequences", "metadata"] := by decide
    exact untagged_keeps_of_tag 1 readsTag methods_nodup rfl rfl Request.isMethod.tagged
      (Request.acceptsAt h hmeta) fun _ => rfl
  | listRootsRequest r =>
    exact untagged_keeps_of_tag 2 readsTag methods_nodup rfl rfl RequestNoParam.isMethod.tagged
      RequestNoParam.acceptsAt fun _ => rfl

end ServerRequest

namespace ClientNotification

/-- The params of the notification are read again by their own struct. -/
def LeafAccepts : ClientNotification → Prop
  | .cancelledNotification n => CancelledNotificationParam.fields.AcceptsAt n.params
  | .progressNotification n => ProgressNotificationParam.fields.AcceptsAt n.params
  | .initializedNotification _ | .rootsListChangedNotification _ => True

def methods : List String :=
  ["notifications/cancelled", "notifications/progress", "notifications/initialized",
   "notifications/roots/list_changed"]

theorem methods_nodup : methods.Nodup := by decide

theorem readsTag : List.Forall₂ (ReadsTag "method") alternatives methods :=
  .cons Notification.isMethod.tagged.readsTag <|
  .cons Notification.isMethod.tagged.readsTag <|
  .cons NotificationNoParam.isMethod.tagged.readsTag <|
  .cons NotificationNoParam.isMethod.tagged.readsTag .nil

theorem methodUnion : MethodUnion flat where
  names n := by
    cases n with
    | cancelledNotification n => exact Notification.isMethod.mem n
    | progressNotification n => exact Notification.isMethod.mem n
    | initializedNotification n => exact NotificationNoParam.isMethod.mem n
    | rootsListChangedNotification n => exact NotificationNoParam.isMethod.mem n
  needs _ h := untagged_of_no_tag readsTag h

theorem keepsAt {n : ClientNotification} (h : n.LeafAccepts) :
    flat.KeepsAt ClientNotification.ctorIdx n := by
  cases n with
  | cancelledNotification n =>
    exact untagged_keeps_of_tag 0 readsTag methods_nodup rfl rfl Notification.isMethod.tagged
      (Notification.acceptsAt h (by decide)) fun _ => rfl
  | progressNotification n =>
    exact untagged_keeps_of_tag 1 readsTag methods_nodup rfl rfl Notification.isMethod.tagged
      (Notification.acceptsAt h (by decide)) fun _ => rfl
  | initializedNotification n =>
    exact untagged_keeps_of_tag 2 readsTag methods_nodup rfl rfl
      NotificationNoParam.isMethod.tagged NotificationNoParam.acceptsAt fun _ => rfl
  | rootsListChangedNotification n =>
    exact untagged_keeps_of_tag 3 readsTag methods_nodup rfl rfl
      NotificationNoParam.isMethod.tagged NotificationNoParam.acceptsAt fun _ => rfl

end ClientNotification

namespace ServerNotification

/-- The params of the notification are read again by their own struct. -/
def LeafAccepts : ServerNotification → Prop
  | .cancelledNotification n => CancelledNotificationParam.fields.AcceptsAt n.params
  | .progressNotification n => ProgressNotificationParam.fields.AcceptsAt n.params
  | .loggingMessageNotification n => LoggingMessageNotificationParam.fields.AcceptsAt n.params
  | .resourceUpdatedNotification n => ResourceUpdatedNotificationParam.fields.AcceptsAt n.params
  | .resourceListChangedNotification _ | .toolListChangedNotification _
  | .promptListChangedNotification _ => True

def methods : List String :=
  ["notifications/cancelled", "notifications/progress", "notifications/message",
   "notifications/resources/updated", "notifications/resources/list_changed",
   "notifications/tools/list_changed", "notifications/prompts/list_changed"]

theorem methods_nodup : methods.Nodup := by decide

theorem readsTag : List.Forall₂ (ReadsTag "method") alternatives methods :=
  .cons Notification.isMethod.tagged.readsTag <|
  .cons Notification.isMethod.tagged.readsTag <|
  .cons Notification.isMethod.tagged.readsTag <|
  .cons Notification.isMethod.tagged.readsTag <|
  .cons NotificationNoParam.isMethod.tagged.readsTag <|
  .cons NotificationNoParam.isMethod.tagged.readsTag <|
  .cons NotificationNoParam.isMethod.tagged.readsTag .nil

theorem methodUnion : MethodUnion flat where
  names n := by
    cases n with
    | cancelledNotification n => exact Notification.isMethod.mem n
    | progressNotification n => exact Notification.isMethod.mem n
    | loggingMessageNotification n => exact Notification.isMethod.mem n
    | resourceUpdatedNotification n => exact Notification.isMethod.mem n
    | resourceListChangedNotification n => exact NotificationNoParam.isMethod.mem n
    | toolListChangedNotification n => exact NotificationNoParam.isMethod.mem n
    | promptListChangedNotification n => exact NotificationNoParam.isMethod.mem n
  needs _ h := untagged_of_no_tag readsTag h

theorem keepsAt {n : ServerNotification} (h : n.LeafAccepts) :
    flat.KeepsAt ServerNotification.ctorIdx n := by
  cases n with
  | cancelledNotification n =>
    exact untagged_keeps_of_tag 0 readsTag methods_nodup rfl rfl Notification.isMethod.tagged
      (Notification.acceptsAt h (by decide)) fun _ => rfl
  | progressNotification n =>
    exact untagged_keeps_of_tag 1 readsTag methods_nodup rfl rfl Notification.isMethod.tagged
      (Notification.acceptsAt h (by decide)) fun _ => rfl
  | loggingMessageNotification n =>
    exact untagged_keeps_of_tag 2 readsTag methods_nodup rfl rfl Notification.isMethod.tagged
      (Notification.acceptsAt h (by decide)) fun _ => rfl
  | resourceUpdatedNotification n =>
    exact untagged_keeps_of_tag 3 readsTag methods_nodup rfl rfl Notification.isMethod.tagged
      (Notification.acceptsAt h (by decide)) fun _ => rfl
  | resourceListChangedNotification n =>
    exact untagged_keeps_of_tag 4 readsTag methods_nodup rfl rfl
      NotificationNoParam.isMethod.tagged NotificationNoParam.acceptsAt fun _ => rfl
  | toolListChangedNotification n =>
    exact untagged_keeps_of_tag 5 readsTag methods_nodup rfl rfl
      NotificationNoParam.isMethod.tagged NotificationNoParam.acceptsAt fun _ => rfl
  | promptListChangedNotification n =>
    exact untagged_keeps_of_tag 6 readsTag methods_nodup rfl rfl
      NotificationNoParam.isMethod.tagged NotificationNoParam.acceptsAt fun _ => rfl

end ServerNotification

/-! ## Results -/

theorem CreateMessageResult.needsMember {U : Type} {wrap : CreateMessageResult L → U} :
    NeedsMember ((CreateMessageResult.codec L).alternative wrap) "model" := by
  intro o ho
  have hmodel := ((Fields.needs_required "model" Codec.string).and_left
    (Fields.optional "stopReason" .string)).flatten (SamplingMessage.fields L).flat ho
  simp [Codec.alternative, CreateMessageResult.codec, Codec.imap, hmodel]

theorem ListRootsResult.needs : ListRootsResult.fields.Needs "roots" :=
  (Fields.needs_required "roots" _).imap _ _

theorem InitializeResult.needs : (InitializeResult.fields L).Needs "protocolVersion" :=
  ((Fields.needs_required "protocolVersion" _).and_left _).imap _ _

theorem CompleteResult.needs : CompleteResult.fields.Needs "completion" :=
  (Fields.needs_required "completion" _).imap _ _

theorem GetPromptResult.needs : (GetPromptResult.fields L).Needs "messages" :=
  ((Fields.needs_required "messages" _).and_right _).imap _ _

theorem PaginatedResult.needs {α : Type} {items : String} {c : Codec α} :
    (PaginatedResult.fields items c).Needs items :=
  ((Fields.needs_required items _).and_right _).imap _ _

theorem ReadResourceResult.needs : (ReadResourceResult.fields L).Needs "contents" :=
  (Fields.needs_required "contents" _).imap _ _

theorem CallToolResult.needs : (CallToolResult.fields L).Needs "content" :=
  ((Fields.needs_required "content" _).and_left _).imap _ _

theorem EmptyResult.acceptsAt {r : EmptyResult} : EmptyResult.fields.AcceptsAt r := ⟨r, rfl⟩

namespace ClientResult

/-- The result is read again by its own struct. -/
def LeafAccepts : ClientResult L → Prop
  | .createMessageResult r => (CreateMessageResult.codec L).AcceptsAt r
  | .listRootsResult r => ListRootsResult.fields.AcceptsAt r
  | .emptyResult _ => True

/-- Each result but the empty one needs a member of its own. -/
def needed : List String := ["model", "roots"]

theorem needsMember : List.Forall₂ NeedsMember (alternatives L).dropLast needed :=
  .cons CreateMessageResult.needsMember <|
  .cons ListRootsResult.needs.needsMember .nil

theorem keepsAt {r : ClientResult L} (h : r.LeafAccepts) :
    (codec L).KeepsAt ClientResult.ctorIdx r := by
  cases r with
  | createMessageResult r =>
    exact untagged_keeps_of_needs 0 needsMember rfl (fun _ => rfl) rfl
      (fun _ hname => nomatch hname) h
  | listRootsResult r =>
    have hnames : ∀ name ∈ needed.take 1, name ∉ ["roots"] := by decide
    exact untagged_keeps_struct_of_needs 1 needsMember rfl hnames h fun _ => rfl
  | emptyResult r =>
    exact untagged_keeps_struct_of_needs 2 needsMember rfl (fun _ _ => List.not_mem_nil)
      EmptyResult.acceptsAt fun _ => rfl

end ClientResult

namespace ServerResult

/-- The result is read again by its own struct. -/
def LeafAccepts : ServerResult L → Prop
  | .initializeResult r => (InitializeResult.fields L).AcceptsAt r
  | .completeResult r => CompleteResult.fields.AcceptsAt r
  | .getPromptResult r => (GetPromptResult.fields L).AcceptsAt r
  | .listPromptsResult r => (ListPromptsResult.fields L).AcceptsAt r
  | .listResourcesResult r => (ListResourcesResult.fields L).AcceptsAt r
  | .listResourceTemplatesResult r => (ListResourceTemplatesResult.fields L).AcceptsAt r
  | .readResourceResult r => (ReadResourceResult.fields L).AcceptsAt r
  | .callToolResult r => (CallToolResult.fields L).AcceptsAt r
  | .listToolsResult r => (ListToolsResult.fields L).AcceptsAt r
  | .emptyResult _ => True

/-- Each result but the empty one needs a member of its own. -/
def needed : List String :=
  ["protocolVersion", "completion", "messages", "prompts", "resources", "resourceTemplates",
   "contents", "content", "tools"]

theorem needsMember : List.Forall₂ NeedsMember (alternatives L).dropLast needed :=
  .cons InitializeResult.needs.needsMember <|
  .cons CompleteResult.needs.needsMember <|
  .cons GetPromptResult.needs.needsMember <|
  .cons PaginatedResult.needs.needsMember <|
  .cons PaginatedResult.needs.needsMember <|
  .cons PaginatedResult.needs.needsMember <|
  .cons ReadResourceResult.needs.needsMember <|
  .cons CallToolResult.needs.needsMember <|
  .cons PaginatedResult.needs.needsMember .nil

theorem keepsAt {r : ServerResult L} (h : r.LeafAccepts) :
    (codec L).KeepsAt ServerResult.ctorIdx r := by
  cases r with
  | initializeResult r =>
    exact untagged_keeps_struct_of_needs 0 needsMember rfl (fun _ hname => nomatch hname) h
      fun _ => rfl
  | completeResult r =>
    have hnames : ∀ name ∈ needed.take 1, name ∉ ["completion"] := by decide
    exact untagged_keeps_struct_of_needs 1 needsMember rfl hnames h fun _ => rfl
  | getPromptResult r =>
    have hnames : ∀ name ∈ needed.take 2, name ∉ ["description", "messages"] := by decide
    exact untagged_keeps_struct_of_needs 2 needsMember rfl hnames h fun _ => rfl
  | listPromptsResult r =>
    have hnames : ∀ name ∈ needed.take 3, name ∉ ["nextCursor", "prompts"] := by decide
    exact untagged_keeps_struct_of_needs 3 needsMember rfl hnames h fun _ => rfl
  | listResourcesResult r =>
    have hnames : ∀ name ∈ needed.take 4, name ∉ ["nextCursor", "resources"] := by decide
    exact untagged_keeps_struct_of_needs 4 needsMember rfl hnames h fun _ => rfl
  | listResourceTemplatesResult r =>
    have hnames : ∀ name ∈ needed.take 5, name ∉ ["nextCursor", "resourceTemplates"] := by decide
    exact untagged_keeps_struct_of_needs 5 needsMember rfl hnames h fun _ => rfl
  | readResourceResult r =>
    have hnames : ∀ name ∈ needed.take 6, name ∉ ["contents"] := by decide
    exact untagged_keeps_struct_of_needs 6 needsMember rfl hnames h fun _ => rfl
  | callToolResult r =>
    have hnames : ∀ name ∈ needed.take 7, name ∉ ["content", "isError"] := by decide
    exact untagged_keeps_struct_of_needs 7 needsMember rfl hnames h fun _ => rfl
  | listToolsResult r =>
    have hnames : ∀ name ∈ needed.take 8, name ∉ ["nextCursor", "tools"] := by decide
    exact untagged_keeps_struct_of_needs 8 needsMember rfl hnames h fun _ => rfl
  | emptyResult r =>
    exact untagged_keeps_struct_of_needs 9 needsMember rfl (fun _ _ => List.not_mem_nil)
      EmptyResult.acceptsAt fun _ => rfl

end ServerResult

/-! ## Messages -/

theorem JsonRpcMessage.AllPayloads.imp {Req Resp Not : Type} {req req' : Req → Prop}
    {resp resp' : Resp → Prop} {noti noti' : Not → Prop} {m : JsonRpcMessage Req Resp Not}
    (hreq : ∀ r, req r → req' r) (hresp : ∀ r, resp r → resp' r) (hnoti : ∀ n, noti n → noti' n)
    (h : m.AllPayloads req resp noti) : m.AllPayloads req' resp' noti' := by
  cases m with
  | request r => exact hreq _ h
  | response r => exact hresp _ h
  | notification n => exact hnoti _ h
  | batchRequest items =>
    intro item hitem
    have hpayload := h item hitem
    cases item with
    | request r => exact hreq _ hpayload
    | notification n => exact hnoti _ hpayload
  | batchResponse items =>
    intro item hitem
    have hpayload := h item hitem
    cases item with
    | response r => exact hresp _ hpayload
    | error e => trivial
  | error e => trivial

/-- In both roles, a message that is no empty batch is read as one of the same kind, with the
same ids, error codes and variants, as long as each struct of params and results reads what it
wrote. -/
theorem messages_keep_kind (L : Leaves) :
    (∀ m : ClientJsonRpcMessage L.payloads, ¬ m.EmptyBatch →
      m.AllPayloads ClientRequest.LeafAccepts ClientResult.LeafAccepts
        ClientNotification.LeafAccepts →
      ∃ m', (ClientJsonRpcMessage.codec L).deserialize
          ((ClientJsonRpcMessage.codec L).serialize m) = some m' ∧
        m'.kind ClientRequest.ctorIdx ClientResult.ctorIdx ClientNotification.ctorIdx =
          m.kind ClientRequest.ctorIdx ClientResult.ctorIdx ClientNotification.ctorIdx) ∧
    (∀ m : ServerJsonRpcMessage L.payloads, ¬ m.EmptyBatch →
      m.AllPayloads ServerRequest.LeafAccepts ServerResult.LeafAccepts
        ServerNotification.LeafAccepts →
      ∃ m', (ServerJsonRpcMessage.codec L).deserialize
          ((ServerJsonRpcMessage.codec L).serialize m) = some m' ∧
        m'.kind ServerRequest.ctorIdx ServerResult.ctorIdx ServerNotification.ctorIdx =
          m.kind ServerRequest.ctorIdx ServerResult.ctorIdx ServerNotification.ctorIdx) := by
  constructor
  · intro m hm h
    refine JsonRpcMessage.keepsAt ClientRequest.methodUnion ClientNotification.methodUnion hm ?_
    exact h.imp (fun _ => ClientRequest.keepsAt) (fun _ => ClientResult.keepsAt)
      fun _ => ClientNotification.keepsAt
  · intro m hm h
    refine JsonRpcMessage.keepsAt ServerRequest.methodUnion ServerNotification.methodUnion hm ?_
    exact h.imp (fun _ => ServerRequest.keepsAt) (fun _ => ServerResult.keepsAt)
      fun _ => ServerNotification.keepsAt

/-- Nested values that are kept as they are. -/
def plainLeaves : Leaves :=
  ⟨.value, .value, .value, .value, .value, .value, .value, .value, .value, .value, .value, .value⟩

/-- A client opens with a batch, and a server answers with one. -/
def openingBatch : ClientJsonRpcMessage plainLeaves.payloads :=
  .batchRequest
    [.request ⟨.number 0, .initializeRequest
      ⟨⟨⟨"2025-03-26"⟩, .object [], ⟨"client", "0.1.0"⟩⟩, ⟨none⟩⟩⟩,
     .notification ⟨.cancelledNotification ⟨⟨.number 7, none⟩, ⟨some ⟨[("trace", .bool true)]⟩⟩⟩⟩]

def answeringBatch : ServerJsonRpcMessage plainLeaves.payloads :=
  .batchResponse
    [.response ⟨.number 0, .listToolsResult ⟨none, [.object []]⟩⟩,
     .response ⟨.string "a", .emptyResult ⟨⟩⟩,
     .error ⟨.number 7, ⟨-32601, "sampling/createMessage", none⟩⟩]

theorem messages_keep_kind_batches :
    (∃ m', (ClientJsonRpcMessage.codec plainLeaves).deserialize
        ((ClientJsonRpcMessage.codec plainLeaves).serialize openingBatch) = some m' ∧
      m'.kind ClientRequest.ctorIdx ClientResult.ctorIdx ClientNotification.ctorIdx =
        .batchRequest [.request (.number 0) 1, .notification 0]) ∧
    (∃ m', (ServerJsonRpcMessage.codec plainLeaves).deserialize
        ((ServerJsonRpcMessage.codec plainLeaves).serialize answeringBatch) = some m' ∧
      m'.kind ServerRequest.ctorIdx ServerResult.ctorIdx ServerNotification.ctorIdx =
        .batchResponse [.response (.number 0) 8, .response (.string "a") 9,
          .error (.number 7) (-32601)]) := by
  constructor
  · have hbatch : ¬ openingBatch.EmptyBatch := by simp [openingBatch, JsonRpcMessage.EmptyBatch]
    refine (messages_keep_kind plainLeaves).1 openingBatch hbatch ?_
    intro item hitem
    simp only [List.mem_cons, List.not_mem_nil, or_false] at hitem
    obtain rfl | rfl := hitem
    · exact ⟨_, rfl⟩
    · exact ⟨_, rfl⟩
  · have hbatch : ¬ answeringBatch.EmptyBatch := by simp [answeringBatch, JsonRpcMessage.EmptyBatch]
    refine (messages_keep_kind plainLeaves).2 answeringBatch hbatch ?_
    intro item hitem
    simp only [List.mem_cons, List.not_mem_nil, or_false] at hitem
    obtain rfl | rfl | rfl := hitem
    · exact ⟨_, rfl⟩
    · trivial
    · trivial

end Rmcp
