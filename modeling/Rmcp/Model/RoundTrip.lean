import Rmcp.Model.Metadata
import Rmcp.Model.Content

/-!
# What comes back from the wire as it was

When a message of either role, written and read again, is the same message. The nested values
aside, four things are lost: the metadata of a request or notification without params, the
missing params of a list request, which come back as params without a cursor, an optional
value that is written as null, and a batch of responses that is empty, which comes back as a
batch of requests.

Result: `messages_come_back_iff`, that nothing else is.
-/

namespace Rmcp

open Serde

/-! ## Common types -/

theorem LoggingLevel.readsBack (level : LoggingLevel) : LoggingLevel.codec.ReadsBackAt level := by
  unfold Codec.ReadsBackAt
  cases level <;> decide

theorem ContextInclusion.readsBack (c : ContextInclusion) :
    ContextInclusion.codec.ReadsBackAt c := by
  unfold Codec.ReadsBackAt
  cases c <;> decide

theorem ProgressToken.readsBack (token : ProgressToken) :
    ProgressToken.codec.ReadsBackAt token :=
  (Codec.readsBackAt_imap rfl fun _ => rfl).mpr (NumberOrString.deserialize_serialize token.value)

theorem Implementation.readsBack (i : Implementation) : Implementation.fields.ReadsBackAt i := by
  refine (Fields.readsBackAt_imap rfl fun _ => rfl).mpr ?_
  rw [Fields.readsBackAt_and (by decide)]
  exact ⟨Fields.readsBackAt_required.mpr rfl, Fields.readsBackAt_required.mpr rfl⟩

variable {L : Leaves}

/-! ## Params of requests -/

theorem InitializeRequestParam.comesBack_iff {p : InitializeRequestParam L} :
    (InitializeRequestParam.fields L).ReadsBackAt p ↔
      L.clientCapabilities.ReadsBackAt p.capabilities := by
  refine (Fields.readsBackAt_imap rfl fun _ => rfl).trans ?_
  rw [Fields.readsBackAt_and (by simp [Fields.required, Fields.and]),
    Fields.readsBackAt_and (by simp [Fields.required])]
  simp only [Fields.readsBackAt_required]
  constructor
  · rintro ⟨_, hcapabilities, _⟩
    exact hcapabilities
  · intro hcapabilities
    exact ⟨rfl, hcapabilities, p.clientInfo.readsBack⟩

theorem ArgumentInfo.comesBack (a : ArgumentInfo) : ArgumentInfo.fields.ReadsBackAt a := by
  refine (Fields.readsBackAt_imap rfl fun _ => rfl).mpr ?_
  rw [Fields.readsBackAt_and (by decide)]
  exact ⟨Fields.readsBackAt_required.mpr rfl, Fields.readsBackAt_required.mpr rfl⟩

theorem CompleteRequestParam.comesBack_iff {p : CompleteRequestParam L} :
    (CompleteRequestParam.fields L).ReadsBackAt p ↔ L.reference.ReadsBackAt p.ref := by
  refine (Fields.readsBackAt_imap rfl fun _ => rfl).trans ?_
  rw [Fields.readsBackAt_and (by simp [Fields.required]), Fields.readsBackAt_required,
    Fields.readsBackAt_required]
  exact and_iff_left p.argument.comesBack

theorem SetLevelRequestParam.comesBack (p : SetLevelRequestParam) :
    SetLevelRequestParam.fields.ReadsBackAt p :=
  (Fields.readsBackAt_imap rfl fun _ => rfl).mpr (Fields.readsBackAt_required.mpr p.level.readsBack)

/-- A name and perhaps arguments. -/
theorem nameAndArguments_readBack (name : String) (arguments : Option JsonObject) :
    ((Fields.required "name" .string).and (.optional "arguments" .object)).ReadsBackAt
      (name, arguments) := by
  rw [Fields.readsBackAt_and (by decide)]
  exact ⟨Fields.readsBackAt_required.mpr rfl, Fields.readsBack_optionalObject arguments⟩

theorem GetPromptRequestParam.comesBack (p : GetPromptRequestParam) :
    GetPromptRequestParam.fields.ReadsBackAt p :=
  (Fields.readsBackAt_imap rfl fun _ => rfl).mpr (nameAndArguments_readBack p.name p.arguments)

theorem CallToolRequestParam.comesBack (p : CallToolRequestParam) :
    CallToolRequestParam.fields.ReadsBackAt p :=
  (Fields.readsBackAt_imap rfl fun _ => rfl).mpr (nameAndArguments_readBack p.name p.arguments)

theorem PaginatedRequestParam.comesBack (p : PaginatedRequestParam) :
    PaginatedRequestParam.fields.ReadsBackAt p :=
  (Fields.readsBackAt_imap rfl fun _ => rfl).mpr (Fields.readsBack_optionalString p.cursor)

theorem ReadResourceRequestParam.comesBack (p : ReadResourceRequestParam) :
    ReadResourceRequestParam.fields.ReadsBackAt p :=
  (Fields.readsBackAt_imap rfl fun _ => rfl).mpr (Fields.readsBackAt_required.mpr rfl)

theorem SubscribeRequestParam.comesBack (p : SubscribeRequestParam) :
    SubscribeRequestParam.fields.ReadsBackAt p :=
  (Fields.readsBackAt_imap rfl fun _ => rfl).mpr (Fields.readsBackAt_required.mpr rfl)

theorem UnsubscribeRequestParam.comesBack (p : UnsubscribeRequestParam) :
    UnsubscribeRequestParam.fields.ReadsBackAt p :=
  (Fields.readsBackAt_imap rfl fun _ => rfl).mpr (Fields.readsBackAt_required.mpr rfl)

/-- What of the params of a sampling request must come back. -/
structure CreateMessageRequestParam.ComesBack (p : CreateMessageRequestParam L) : Prop where
  messages : ∀ m ∈ p.messages, L.content.ReadsBackAt m.content
  modelPreferences : ∀ preferences, p.modelPreferences = some preferences →
    L.modelPreferences.serialize preferences ≠ .null ∧
      L.modelPreferences.ReadsBackAt preferences
  temperature : ∀ t, p.temperature = some t → L.f32.serialize t ≠ .null ∧ L.f32.ReadsBackAt t
  metadata : p.metadata ≠ some .null

theorem CreateMessageRequestParam.comesBack_iff {p : CreateMessageRequestParam L} :
    (CreateMessageRequestParam.fields L).ReadsBackAt p ↔ p.ComesBack := by
  refine (Fields.readsBackAt_imap rfl fun _ => rfl).trans ?_
  have hmessages : (Codec.struct (SamplingMessage.fields L)).list.ReadsBackAt p.messages ↔
      ∀ m ∈ p.messages, L.content.ReadsBackAt m.content := by
    rw [Codec.readsBackAt_list]
    exact forall₂_congr fun m _ => SamplingMessage.comesBack_iff
  have hcontext : (Fields.optional "includeContext" ContextInclusion.codec).ReadsBackAt
      p.includeContext :=
    (Fields.readsBackAt_optional (by simp [ContextInclusion.codec, Codec.unitEnum])).mpr
      fun c _ => c.readsBack
  have hstop : (Fields.optional "stopSequences" (.list .string)).ReadsBackAt p.stopSequences :=
    (Fields.readsBackAt_optional (by simp [Codec.list])).mpr fun _ _ => Codec.readsBack_strings _
  rw [Fields.readsBackAt_and (by decide : ∀ name ∈ ["messages"], name ∉ ["modelPreferences",
      "systemPrompt", "includeContext", "temperature", "maxTokens", "stopSequences", "metadata"]),
    Fields.readsBackAt_and (by decide : ∀ name ∈ ["modelPreferences"], name ∉ ["systemPrompt",
      "includeContext", "temperature", "maxTokens", "stopSequences", "metadata"]),
    Fields.readsBackAt_and (by decide : ∀ name ∈ ["systemPrompt"], name ∉ ["includeContext",
      "temperature", "maxTokens", "stopSequences", "metadata"]),
    Fields.readsBackAt_and (by decide : ∀ name ∈ ["includeContext"], name ∉ ["temperature",
      "maxTokens", "stopSequences", "metadata"]),
    Fields.readsBackAt_and (by decide : ∀ name ∈ ["temperature"], name ∉ ["maxTokens",
      "stopSequences", "metadata"]),
    Fields.readsBackAt_and (by decide : ∀ name ∈ ["maxTokens"], name ∉ ["stopSequences",
      "metadata"]),
    Fields.readsBackAt_and (by decide : ∀ name ∈ ["stopSequences"], name ∉ ["metadata"])]
  rw [Fields.readsBackAt_required, hmessages, Fields.readsBackAt_required,
    Fields.readsBackAt_optionalValue]
  constructor
  · rintro ⟨hm, hpreferences, _, _, htemperature, _, _, hmetadata⟩
    exact ⟨hm, Fields.readsBackAt_option.mp hpreferences,
      Fields.readsBackAt_option.mp htemperature, hmetadata⟩
  · intro h
    exact ⟨h.messages, Fields.readsBackAt_option.mpr h.modelPreferences,
      Fields.readsBack_optionalString _, hcontext, Fields.readsBackAt_option.mpr h.temperature,
      Codec.readsBack_u32 _, hstop, h.metadata⟩

/-! ## Params of notifications -/

theorem CancelledNotificationParam.comesBack (p : CancelledNotificationParam) :
    CancelledNotificationParam.fields.ReadsBackAt p := by
  refine (Fields.readsBackAt_imap rfl fun _ => rfl).mpr ?_
  rw [Fields.readsBackAt_and (by decide), Fields.readsBackAt_required]
  refine ⟨NumberOrString.deserialize_serialize p.requestId, ?_⟩
  exact Fields.readsBackAt_option.mpr fun s _ => ⟨by simp [Codec.string], rfl⟩

theorem ProgressNotificationParam.comesBack (p : ProgressNotificationParam) :
    ProgressNotificationParam.fields.ReadsBackAt p := by
  refine (Fields.readsBackAt_imap rfl fun _ => rfl).mpr ?_
  rw [Fields.readsBackAt_and (by decide), Fields.readsBackAt_and (by decide),
    Fields.readsBackAt_and (by decide), Fields.readsBackAt_required, Fields.readsBackAt_required]
  exact ⟨p.progressToken.readsBack, Codec.readsBack_u32 _, Fields.readsBack_optionalU32 _,
    Fields.readsBack_optionalString _⟩

theorem LoggingMessageNotificationParam.comesBack (p : LoggingMessageNotificationParam) :
    LoggingMessageNotificationParam.fields.ReadsBackAt p := by
  refine (Fields.readsBackAt_imap rfl fun _ => rfl).mpr ?_
  rw [Fields.readsBackAt_and (by decide), Fields.readsBackAt_and (by decide),
    Fields.readsBackAt_required, Fields.readsBackAt_required]
  exact ⟨p.level.readsBack, Fields.readsBack_optionalString _, rfl⟩

theorem ResourceUpdatedNotificationParam.comesBack (p : ResourceUpdatedNotificationParam) :
    ResourceUpdatedNotificationParam.fields.ReadsBackAt p :=
  (Fields.readsBackAt_imap rfl fun _ => rfl).mpr (Fields.readsBackAt_required.mpr rfl)

/-! ## Results -/

theorem Root.comesBack (r : Root) : Root.fields.ReadsBackAt r := by
  refine (Fields.readsBackAt_imap rfl fun _ => rfl).mpr ?_
  rw [Fields.readsBackAt_and (by decide)]
  exact ⟨Fields.readsBackAt_required.mpr rfl, Fields.readsBack_optionalString _⟩

theorem ListRootsResult.comesBack (r : ListRootsResult) : ListRootsResult.fields.ReadsBackAt r :=
  (Fields.readsBackAt_imap rfl fun _ => rfl).mpr
    (Fields.readsBackAt_required.mpr (Codec.readsBackAt_list.mpr fun root _ => root.comesBack))

theorem InitializeResult.comesBack_iff {r : InitializeResult L} :
    (InitializeResult.fields L).ReadsBackAt r ↔
      L.serverCapabilities.ReadsBackAt r.capabilities := by
  refine (Fields.readsBackAt_imap rfl fun _ => rfl).trans ?_
  rw [Fields.readsBackAt_and (by simp [Fields.required, Fields.option, Fields.and]),
    Fields.readsBackAt_and (by simp [Fields.required, Fields.option, Fields.and]),
    Fields.readsBackAt_and (by simp [Fields.required, Fields.option])]
  simp only [Fields.readsBackAt_required]
  constructor
  · rintro ⟨_, hcapabilities, _⟩
    exact hcapabilities
  · intro hcapabilities
    exact ⟨rfl, hcapabilities, r.serverInfo.readsBack, Fields.readsBack_optionalString _⟩

theorem CompletionInfo.comesBack (i : CompletionInfo) : CompletionInfo.fields.ReadsBackAt i := by
  refine (Fields.readsBackAt_imap rfl fun _ => rfl).mpr ?_
  rw [Fields.readsBackAt_and (by decide), Fields.readsBackAt_and (by decide),
    Fields.readsBackAt_required]
  exact ⟨Codec.readsBack_strings _, Fields.readsBack_optionalU32 _, Fields.readsBack_optionalBool _⟩

theorem CompleteResult.comesBack (r : CompleteResult) : CompleteResult.fields.ReadsBackAt r :=
  (Fields.readsBackAt_imap rfl fun _ => rfl).mpr
    (Fields.readsBackAt_required.mpr r.completion.comesBack)

theorem GetPromptResult.comesBack_iff {r : GetPromptResult L} :
    (GetPromptResult.fields L).ReadsBackAt r ↔
      ∀ m ∈ r.messages, L.promptMessage.ReadsBackAt m := by
  refine (Fields.readsBackAt_imap rfl fun _ => rfl).trans ?_
  rw [Fields.readsBackAt_and (by simp [Fields.required, Fields.option]),
    Fields.readsBackAt_required, Codec.readsBackAt_list]
  exact and_iff_right (Fields.readsBack_optionalString _)

theorem PaginatedResult.comesBack_iff {α : Type} {items : String} {c : Codec α}
    {r : PaginatedResult α} (hitems : "nextCursor" ≠ items) :
    (PaginatedResult.fields items c).ReadsBackAt r ↔ ∀ item ∈ r.items, c.ReadsBackAt item := by
  refine (Fields.readsBackAt_imap rfl fun _ => rfl).trans ?_
  rw [Fields.readsBackAt_and (by simpa [Fields.required, Fields.option] using hitems),
    Fields.readsBackAt_required, Codec.readsBackAt_list]
  exact and_iff_right (Fields.readsBack_optionalString _)

theorem ReadResourceResult.comesBack_iff {r : ReadResourceResult L} :
    (ReadResourceResult.fields L).ReadsBackAt r ↔
      ∀ c ∈ r.contents, L.resourceContents.ReadsBackAt c := by
  refine (Fields.readsBackAt_imap rfl fun _ => rfl).trans ?_
  rw [Fields.readsBackAt_required, Codec.readsBackAt_list]

/-! ## Methods and metadata -/

section SerdeImpl

variable {P : Type} {p : Fields P} {method : String}

/-- The metadata comes back whatever the params do. -/
theorem WithMeta.readsBackAt_iff {rest : Flat P} {m : Option Meta} {params : P}
    (hnames : ∀ member ∈ rest.serialize params, member.1 ≠ "_meta") :
    (WithMeta.codec rest).ReadsBackAt (m, params) ↔ rest.ReadsBackAt params := by
  have hmeta : (Fields.optional "_meta" Meta.codec).ReadsBackAt m :=
    (Fields.readsBackAt_optional (by simp [Meta.codec, Codec.imap, Codec.object])).mpr
      fun _ _ => rfl
  have hother : ∀ member ∈ rest.serialize params, member.1 ∉ ["_meta"] := by simpa using hnames
  rw [WithMeta.codec, Fields.readsBackAt_flatten hother]
  exact and_iff_right hmeta

theorem WithMeta.readsBackAt_fields {m : Option Meta} {params : P} (hmeta : "_meta" ∉ p.names) :
    (WithMeta.codec p.flat).ReadsBackAt (m, params) ↔ p.ReadsBackAt params :=
  WithMeta.readsBackAt_iff (p.key_ne hmeta)

theorem Request.comesBack_iff {r : Request P} (hmeta : "_meta" ∉ p.names) :
    (Request.fields method p).ReadsBackAt r ↔ p.ReadsBackAt r.params := by
  rw [fields, Fields.readsBackAt_tagged (by simp [Fields.imap, Fields.required])]
  refine (Fields.readsBackAt_imap rfl fun _ => rfl).trans ?_
  rw [Fields.readsBackAt_required, WithMeta.readsBackAt_fields hmeta]

theorem Notification.comesBack_iff {n : Notification P} (hmeta : "_meta" ∉ p.names) :
    (Notification.fields method p).ReadsBackAt n ↔ p.ReadsBackAt n.params := by
  rw [fields, Fields.readsBackAt_tagged (by simp [Fields.imap, Fields.required])]
  refine (Fields.readsBackAt_imap rfl fun _ => rfl).trans ?_
  rw [Fields.readsBackAt_required, WithMeta.readsBackAt_fields hmeta]

/-- The metadata is not written. -/
theorem RequestNoParam.comesBack_iff {r : RequestNoParam} :
    (RequestNoParam.fields method).ReadsBackAt r ↔ r.extensions.metaEntry = none := by
  rw [fields, Fields.readsBackAt_tagged List.not_mem_nil]
  obtain ⟨⟨m⟩⟩ := r
  cases m <;> simp [Fields.ReadsBackAt, Fields.imap, Fields.nil]

theorem NotificationNoParam.comesBack_iff {n : NotificationNoParam} :
    (NotificationNoParam.fields method).ReadsBackAt n ↔ n.extensions.metaEntry = none := by
  rw [fields, Fields.readsBackAt_tagged List.not_mem_nil]
  obtain ⟨⟨m⟩⟩ := n
  cases m <;> simp [Fields.ReadsBackAt, Fields.imap, Fields.nil]

/-- Params that are not there are read from an object without members. -/
theorem RequestOptionalParam.comesBack_iff {r : RequestOptionalParam P}
    (hmeta : "_meta" ∉ p.names) :
    (RequestOptionalParam.fields method p).ReadsBackAt r ↔
      p.visitMap ((r.params.map p.serialize).getD []) = r.params := by
  have hnames : ∀ params, r.params = some params →
      ∀ member ∈ p.flat.serialize params, member.1 ≠ "_meta" :=
    fun params _ => p.key_ne hmeta
  have hread := SerdeImpl.RequestOptionalParam.deserialize_serialize (.const method) p.flat
    ⟨(), r.params, r.extensions⟩ hnames
  rw [Fields.ReadsBackAt, SerdeImpl.RequestOptionalParam.deserialize_fields,
    SerdeImpl.RequestOptionalParam.serialize_fields, hread]
  obtain ⟨params, e⟩ := r
  simp [Fields.flat]

theorem RequestOptionalParam.comesBack_paginated {r : RequestOptionalParam PaginatedRequestParam} :
    (RequestOptionalParam.fields method PaginatedRequestParam.fields).ReadsBackAt r ↔
      r.params ≠ none := by
  rw [RequestOptionalParam.comesBack_iff (by decide)]
  cases hparams : r.params with
  | none => exact iff_of_false (by decide) (by simp)
  | some page => exact iff_of_true page.comesBack (by simp)

end SerdeImpl

/-! ## The unions -/

namespace ClientRequest

/-- What of the request must come back, its nested values aside: the metadata of a ping is not
written, and a list request must have params. -/
def ComesBack : ClientRequest L → Prop
  | .pingRequest r => r.extensions.metaEntry = none
  | .initializeRequest r => L.clientCapabilities.ReadsBackAt r.params.capabilities
  | .completeRequest r => L.reference.ReadsBackAt r.params.ref
  | .listPromptsRequest r | .listResourcesRequest r | .listResourceTemplatesRequest r
  | .listToolsRequest r => r.params ≠ none
  | .setLevelRequest _ | .getPromptRequest _ | .readResourceRequest _ | .subscribeRequest _
  | .unsubscribeRequest _ | .callToolRequest _ => True

theorem makes : List.Forall₂ (Makes ClientRequest.ctorIdx) (alternatives L)
    (List.range methods.length) :=
  .cons (Codec.alternative_makes fun _ => rfl) <| .cons (Codec.alternative_makes fun _ => rfl) <|
  .cons (Codec.alternative_makes fun _ => rfl) <| .cons (Codec.alternative_makes fun _ => rfl) <|
  .cons (Codec.alternative_makes fun _ => rfl) <| .cons (Codec.alternative_makes fun _ => rfl) <|
  .cons (Codec.alternative_makes fun _ => rfl) <| .cons (Codec.alternative_makes fun _ => rfl) <|
  .cons (Codec.alternative_makes fun _ => rfl) <| .cons (Codec.alternative_makes fun _ => rfl) <|
  .cons (Codec.alternative_makes fun _ => rfl) <| .cons (Codec.alternative_makes fun _ => rfl) <|
  .cons (Codec.alternative_makes fun _ => rfl) .nil

theorem comesBack_iff {r : ClientRequest L} : (flat L).ReadsBackAt r ↔ r.ComesBack := by
  cases r with
  | pingRequest r =>
    exact (untagged_struct_eq_some_iff 0 makes readsTag methods_nodup rfl rfl
      RequestNoParam.isMethod.tagged rfl fun _ _ => pingRequest.inj).trans
      RequestNoParam.comesBack_iff
  | initializeRequest r =>
    have hmeta : "_meta" ∉ ["protocolVersion", "capabilities", "clientInfo"] := by decide
    exact (untagged_struct_eq_some_iff 1 makes readsTag methods_nodup rfl rfl
      Request.isMethod.tagged rfl fun _ _ => initializeRequest.inj).trans
      ((Request.comesBack_iff hmeta).trans InitializeRequestParam.comesBack_iff)
  | completeRequest r =>
    have hmeta : "_meta" ∉ ["ref", "argument"] := by decide
    exact (untagged_struct_eq_some_iff 2 makes readsTag methods_nodup rfl rfl
      Request.isMethod.tagged rfl fun _ _ => completeRequest.inj).trans
      ((Request.comesBack_iff hmeta).trans CompleteRequestParam.comesBack_iff)
  | setLevelRequest r =>
    exact (untagged_struct_eq_some_iff 3 makes readsTag methods_nodup rfl rfl
      Request.isMethod.tagged rfl fun _ _ => setLevelRequest.inj).trans
      ((Request.comesBack_iff (by decide)).trans (iff_true_intro r.params.comesBack))
  | getPromptRequest r =>
    exact (untagged_struct_eq_some_iff 4 makes readsTag methods_nodup rfl rfl
      Request.isMethod.tagged rfl fun _ _ => getPromptRequest.inj).trans
      ((Request.comesBack_iff (by decide)).trans (iff_true_intro r.params.comesBack))
  | listPromptsRequest r =>
    exact (untagged_struct_eq_some_iff 5 makes readsTag methods_nodup rfl rfl
      RequestOptionalParam.isMethod.tagged rfl fun _ _ => listPromptsRequest.inj).trans
      RequestOptionalParam.comesBack_paginated
  | listResourcesRequest r =>
    exact (untagged_struct_eq_some_iff 6 makes readsTag methods_nodup rfl rfl
      RequestOptionalParam.isMethod.tagged rfl fun _ _ => listResourcesRequest.inj).trans
      RequestOptionalParam.comesBack_paginated
  | listResourceTemplatesRequest r =>
    exact (untagged_struct_eq_some_iff 7 makes readsTag methods_nodup rfl rfl
      RequestOptionalParam.isMethod.tagged rfl fun _ _ => listResourceTemplatesRequest.inj).trans
      RequestOptionalParam.comesBack_paginated
  | readResourceRequest r =>
    exact (untagged_struct_eq_some_iff 8 makes readsTag methods_nodup rfl rfl
      Request.isMethod.tagged rfl fun _ _ => readResourceRequest.inj).trans
      ((Request.comesBack_iff (by decide)).trans (iff_true_intro r.params.comesBack))
  | subscribeRequest r =>
    exact (untagged_struct_eq_some_iff 9 makes readsTag methods_nodup rfl rfl
      Request.isMethod.tagged rfl fun _ _ => subscribeRequest.inj).trans
      ((Request.comesBack_iff (by decide)).trans (iff_true_intro r.params.comesBack))
  | unsubscribeRequest r =>
    exact (untagged_struct_eq_some_iff 10 makes readsTag methods_nodup rfl rfl
      Request.isMethod.tagged rfl fun _ _ => unsubscribeRequest.inj).trans
      ((Request.comesBack_iff (by decide)).trans (iff_true_intro r.params.comesBack))
  | callToolRequest r =>
    exact (untagged_struct_eq_some_iff 11 makes readsTag methods_nodup rfl rfl
      Request.isMethod.tagged rfl fun _ _ => callToolRequest.inj).trans
      ((Request.comesBack_iff (by decide)).trans (iff_true_intro r.params.comesBack))
  | listToolsRequest r =>
    exact (untagged_struct_eq_some_iff 12 makes readsTag methods_nodup rfl rfl
      RequestOptionalParam.isMethod.tagged rfl fun _ _ => listToolsRequest.inj).trans
      RequestOptionalParam.comesBack_paginated

end ClientRequest

namespace ServerRequest

def ComesBack : ServerRequest L → Prop
  | .createMessageRequest r => r.params.ComesBack
  | .pingRequest r | .listRootsRequest r => r.extensions.metaEntry = none

theorem makes : List.Forall₂ (Makes ServerRequest.ctorIdx) (alternatives L)
    (List.range methods.length) :=
  .cons (Codec.alternative_makes fun _ => rfl) <| .cons (Codec.alternative_makes fun _ => rfl) <|
  .cons (Codec.alternative_makes fun _ => rfl) .nil

theorem comesBack_iff {r : ServerRequest L} : (flat L).ReadsBackAt r ↔ r.ComesBack := by
  cases r with
  | pingRequest r =>
    exact (untagged_struct_eq_some_iff 0 makes readsTag methods_nodup rfl rfl
      RequestNoParam.isMethod.tagged rfl fun _ _ => pingRequest.inj).trans
      RequestNoParam.comesBack_iff
  | createMessageRequest r =>
    have hmeta : "_meta" ∉ ["messages", "modelPreferences", "systemPrompt", "includeContext",
        "temperature", "maxTokens", "stopSequences", "metadata"] := by decide
    exact (untagged_struct_eq_some_iff 1 makes readsTag methods_nodup rfl rfl
      Request.isMethod.tagged rfl fun _ _ => createMessageRequest.inj).trans
      ((Request.comesBack_iff hmeta).trans CreateMessageRequestParam.comesBack_iff)
  | listRootsRequest r =>
    exact (untagged_struct_eq_some_iff 2 makes readsTag methods_nodup rfl rfl
      RequestNoParam.isMethod.tagged rfl fun _ _ => listRootsRequest.inj).trans
      RequestNoParam.comesBack_iff

end ServerRequest

namespace ClientNotification

/-- The metadata is not written where there are no params. -/
def ComesBack : ClientNotification → Prop
  | .cancelledNotification _ | .progressNotification _ => True
  | .initializedNotification n | .rootsListChangedNotification n => n.extensions.metaEntry = none

theorem makes : List.Forall₂ (Makes ClientNotification.ctorIdx) alternatives
    (List.range methods.length) :=
  .cons (Codec.alternative_makes fun _ => rfl) <| .cons (Codec.alternative_makes fun _ => rfl) <|
  .cons (Codec.alternative_makes fun _ => rfl) <|
  .cons (Codec.alternative_makes fun _ => rfl) .nil

theorem comesBack_iff {n : ClientNotification} : flat.ReadsBackAt n ↔ n.ComesBack := by
  cases n with
  | cancelledNotification n =>
    exact (untagged_struct_eq_some_iff 0 makes readsTag methods_nodup rfl rfl
      Notification.isMethod.tagged rfl fun _ _ => cancelledNotification.inj).trans
      ((Notification.comesBack_iff (by decide)).trans (iff_true_intro n.params.comesBack))
  | progressNotification n =>
    exact (untagged_struct_eq_some_iff 1 makes readsTag methods_nodup rfl rfl
      Notification.isMethod.tagged rfl fun _ _ => progressNotification.inj).trans
      ((Notification.comesBack_iff (by decide)).trans (iff_true_intro n.params.comesBack))
  | initializedNotification n =>
    exact (untagged_struct_eq_some_iff 2 makes readsTag methods_nodup rfl rfl
      NotificationNoParam.isMethod.tagged rfl fun _ _ => initializedNotification.inj).trans
      NotificationNoParam.comesBack_iff
  | rootsListChangedNotification n =>
    exact (untagged_struct_eq_some_iff 3 makes readsTag methods_nodup rfl rfl
      NotificationNoParam.isMethod.tagged rfl fun _ _ => rootsListChangedNotification.inj).trans
      NotificationNoParam.comesBack_iff

end ClientNotification

namespace ServerNotification

def ComesBack : ServerNotification → Prop
  | .cancelledNotification _ | .progressNotification _ | .loggingMessageNotification _
  | .resourceUpdatedNotification _ => True
  | .resourceListChangedNotification n | .toolListChangedNotification n
  | .promptListChangedNotification n => n.extensions.metaEntry = none

theorem makes : List.Forall₂ (Makes ServerNotification.ctorIdx) alternatives
    (List.range methods.length) :=
  .cons (Codec.alternative_makes fun _ => rfl) <| .cons (Codec.alternative_makes fun _ => rfl) <|
  .cons (Codec.alternative_makes fun _ => rfl) <| .cons (Codec.alternative_makes fun _ => rfl) <|
  .cons (Codec.alternative_makes fun _ => rfl) <| .cons (Codec.alternative_makes fun _ => rfl) <|
  .cons (Codec.alternative_makes fun _ => rfl) .nil

theorem comesBack_iff {n : ServerNotification} : flat.ReadsBackAt n ↔ n.ComesBack := by
  cases n with
  | cancelledNotification n =>
    exact (untagged_struct_eq_some_iff 0 makes readsTag methods_nodup rfl rfl
      Notification.isMethod.tagged rfl fun _ _ => cancelledNotification.inj).trans
      ((Notification.comesBack_iff (by decide)).trans (iff_true_intro n.params.comesBack))
  | progressNotification n =>
    exact (untagged_struct_eq_some_iff 1 makes readsTag methods_nodup rfl rfl
      Notification.isMethod.tagged rfl fun _ _ => progressNotification.inj).trans
      ((Notification.comesBack_iff (by decide)).trans (iff_true_intro n.params.comesBack))
  | loggingMessageNotification n =>
    exact (untagged_struct_eq_some_iff 2 makes readsTag methods_nodup rfl rfl
      Notification.isMethod.tagged rfl fun _ _ => loggingMessageNotification.inj).trans
      ((Notification.comesBack_iff (by decide)).trans (iff_true_intro n.params.comesBack))
  | resourceUpdatedNotification n =>
    exact (untagged_struct_eq_some_iff 3 makes readsTag methods_nodup rfl rfl
      Notification.isMethod.tagged rfl fun _ _ => resourceUpdatedNotification.inj).trans
      ((Notification.comesBack_iff (by decide)).trans (iff_true_intro n.params.comesBack))
  | resourceListChangedNotification n =>
    exact (untagged_struct_eq_some_iff 4 makes readsTag methods_nodup rfl rfl
      NotificationNoParam.isMethod.tagged rfl fun _ _ => resourceListChangedNotification.inj).trans
      NotificationNoParam.comesBack_iff
  | toolListChangedNotification n =>
    exact (untagged_struct_eq_some_iff 5 makes readsTag methods_nodup rfl rfl
      NotificationNoParam.isMethod.tagged rfl fun _ _ => toolListChangedNotification.inj).trans
      NotificationNoParam.comesBack_iff
  | promptListChangedNotification n =>
    exact (untagged_struct_eq_some_iff 6 makes readsTag methods_nodup rfl rfl
      NotificationNoParam.isMethod.tagged rfl fun _ _ => promptListChangedNotification.inj).trans
      NotificationNoParam.comesBack_iff

end ServerNotification

namespace ClientResult

def ComesBack : ClientResult L → Prop
  | .createMessageResult r => L.content.ReadsBackAt r.message.content
  | .listRootsResult _ | .emptyResult _ => True

theorem makes : List.Forall₂ (Makes ClientResult.ctorIdx)
    ((alternatives L).dropLast ++ [(Codec.struct EmptyResult.fields).alternative .emptyResult])
    (List.range (needed.length + 1)) :=
  .cons (Codec.alternative_makes fun _ => rfl) <| .cons (Codec.alternative_makes fun _ => rfl) <|
  .cons (Codec.alternative_makes fun _ => rfl) .nil

theorem comesBack_iff {r : ClientResult L} : (codec L).ReadsBackAt r ↔ r.ComesBack := by
  cases r with
  | createMessageResult r =>
    exact (untagged_codec_eq_some_iff 0 makes needsMember rfl (by decide) rfl
      (fun _ hname => absurd hname List.not_mem_nil) rfl fun _ _ => createMessageResult.inj).trans
      CreateMessageResult.comesBack_iff
  | listRootsResult r =>
    have hnames : ∀ name ∈ needed.take 1, name ∉ ["roots"] := by decide
    exact (untagged_codec_eq_some_iff 1 makes needsMember rfl (by decide) rfl
      (fun name hname => ListRootsResult.fields.not_mem_keys (hnames name hname)) rfl
      fun _ _ => listRootsResult.inj).trans (iff_true_intro r.comesBack)
  | emptyResult r =>
    exact (untagged_codec_eq_some_iff 2 makes needsMember rfl (by decide) rfl
      (fun _ _ => List.not_mem_nil) rfl fun _ _ => emptyResult.inj).trans (iff_true_intro rfl)

end ClientResult

namespace ServerResult

def ComesBack : ServerResult L → Prop
  | .initializeResult r => L.serverCapabilities.ReadsBackAt r.capabilities
  | .getPromptResult r => ∀ m ∈ r.messages, L.promptMessage.ReadsBackAt m
  | .listPromptsResult r => ∀ prompt ∈ r.items, L.prompt.ReadsBackAt prompt
  | .listResourcesResult r => ∀ resource ∈ r.items, L.resource.ReadsBackAt resource
  | .listResourceTemplatesResult r =>
    ∀ template ∈ r.items, L.resourceTemplate.ReadsBackAt template
  | .readResourceResult r => ∀ c ∈ r.contents, L.resourceContents.ReadsBackAt c
  | .callToolResult r => ∀ c ∈ r.content, L.content.ReadsBackAt c
  | .listToolsResult r => ∀ tool ∈ r.items, L.tool.ReadsBackAt tool
  | .completeResult _ | .emptyResult _ => True

theorem makes : List.Forall₂ (Makes ServerResult.ctorIdx)
    ((alternatives L).dropLast ++ [(Codec.struct EmptyResult.fields).alternative .emptyResult])
    (List.range (needed.length + 1)) :=
  .cons (Codec.alternative_makes fun _ => rfl) <| .cons (Codec.alternative_makes fun _ => rfl) <|
  .cons (Codec.alternative_makes fun _ => rfl) <| .cons (Codec.alternative_makes fun _ => rfl) <|
  .cons (Codec.alternative_makes fun _ => rfl) <| .cons (Codec.alternative_makes fun _ => rfl) <|
  .cons (Codec.alternative_makes fun _ => rfl) <| .cons (Codec.alternative_makes fun _ => rfl) <|
  .cons (Codec.alternative_makes fun _ => rfl) <|
  .cons (Codec.alternative_makes fun _ => rfl) .nil

theorem comesBack_iff {r : ServerResult L} : (codec L).ReadsBackAt r ↔ r.ComesBack := by
  cases r with
  | initializeResult r =>
    exact (untagged_codec_eq_some_iff 0 makes needsMember rfl (by decide) rfl
      (fun _ hname => absurd hname List.not_mem_nil) rfl fun _ _ => initializeResult.inj).trans
      InitializeResult.comesBack_iff
  | completeResult r =>
    have hnames : ∀ name ∈ needed.take 1, name ∉ ["completion"] := by decide
    exact (untagged_codec_eq_some_iff 1 makes needsMember rfl (by decide) rfl
      (fun name hname => CompleteResult.fields.not_mem_keys (hnames name hname)) rfl
      fun _ _ => completeResult.inj).trans (iff_true_intro r.comesBack)
  | getPromptResult r =>
    have hnames : ∀ name ∈ needed.take 2, name ∉ ["description", "messages"] := by decide
    exact (untagged_codec_eq_some_iff 2 makes needsMember rfl (by decide) rfl
      (fun name hname => (GetPromptResult.fields L).not_mem_keys (hnames name hname)) rfl
      fun _ _ => getPromptResult.inj).trans GetPromptResult.comesBack_iff
  | listPromptsResult r =>
    have hnames : ∀ name ∈ needed.take 3, name ∉ ["nextCursor", "prompts"] := by decide
    exact (untagged_codec_eq_some_iff 3 makes needsMember rfl (by decide) rfl
      (fun name hname => (ListPromptsResult.fields L).not_mem_keys (hnames name hname)) rfl
      fun _ _ => listPromptsResult.inj).trans (PaginatedResult.comesBack_iff (by decide))
  | listResourcesResult r =>
    have hnames : ∀ name ∈ needed.take 4, name ∉ ["nextCursor", "resources"] := by decide
    exact (untagged_codec_eq_some_iff 4 makes needsMember rfl (by decide) rfl
      (fun name hname => (ListResourcesResult.fields L).not_mem_keys (hnames name hname)) rfl
      fun _ _ => listResourcesResult.inj).trans (PaginatedResult.comesBack_iff (by decide))
  | listResourceTemplatesResult r =>
    have hnames : ∀ name ∈ needed.take 5, name ∉ ["nextCursor", "resourceTemplates"] := by decide
    exact (untagged_codec_eq_some_iff 5 makes needsMember rfl (by decide) rfl
      (fun name hname => (ListResourceTemplatesResult.fields L).not_mem_keys (hnames name hname)) rfl
      fun _ _ => listResourceTemplatesResult.inj).trans (PaginatedResult.comesBack_iff (by decide))
  | readResourceResult r =>
    have hnames : ∀ name ∈ needed.take 6, name ∉ ["contents"] := by decide
    exact (untagged_codec_eq_some_iff 6 makes needsMember rfl (by decide) rfl
      (fun name hname => (ReadResourceResult.fields L).not_mem_keys (hnames name hname)) rfl
      fun _ _ => readResourceResult.inj).trans ReadResourceResult.comesBack_iff
  | callToolResult r =>
    have hnames : ∀ name ∈ needed.take 7, name ∉ ["content", "isError"] := by decide
    exact (untagged_codec_eq_some_iff 7 makes needsMember rfl (by decide) rfl
      (fun name hname => (CallToolResult.fields L).not_mem_keys (hnames name hname)) rfl
      fun _ _ => callToolResult.inj).trans CallToolResult.comesBack_iff
  | listToolsResult r =>
    have hnames : ∀ name ∈ needed.take 8, name ∉ ["nextCursor", "tools"] := by decide
    exact (untagged_codec_eq_some_iff 8 makes needsMember rfl (by decide) rfl
      (fun name hname => (ListToolsResult.fields L).not_mem_keys (hnames name hname)) rfl
      fun _ _ => listToolsResult.inj).trans (PaginatedResult.comesBack_iff (by decide))
  | emptyResult r =>
    exact (untagged_codec_eq_some_iff 9 makes needsMember rfl (by decide) rfl
      (fun _ _ => List.not_mem_nil) rfl fun _ _ => emptyResult.inj).trans (iff_true_intro rfl)

end ServerResult

/-! ## Messages -/

section Messages

variable {Req Resp Not : Type} {req : Flat Req} {resp : Codec Resp} {noti : Flat Not}

theorem JsonRpcRequest.comesBack_iff (hreq : MethodUnion req) {r : JsonRpcRequest Req} :
    (JsonRpcRequest.codec req).ReadsBackAt r ↔ req.ReadsBackAt r.request := by
  refine (Codec.readsBackAt_imap rfl fun _ => rfl).trans ?_
  rw [Fields.readsBackAt_flatten (hreq.not_mem (by decide) r.request)]
  exact and_iff_right (versionAndId_keeps r.id)

theorem JsonRpcNotification.comesBack_iff (hnoti : MethodUnion noti)
    {n : JsonRpcNotification Not} :
    (JsonRpcNotification.codec noti).ReadsBackAt n ↔ noti.ReadsBackAt n.notification := by
  refine (Codec.readsBackAt_imap rfl fun _ => rfl).trans ?_
  rw [Fields.readsBackAt_flatten (hnoti.not_mem (by decide) n.notification)]
  exact and_iff_right versionOnly_keeps

theorem JsonRpcResponse.comesBack_iff {r : JsonRpcResponse Resp} :
    (JsonRpcResponse.fields resp).ReadsBackAt r ↔ resp.ReadsBackAt r.result := by
  refine (Fields.readsBackAt_imap rfl fun _ => rfl).trans ?_
  rw [Fields.readsBackAt_tagged (by simp [Fields.and, Fields.required]),
    Fields.readsBackAt_and (by simp [Fields.required]), Fields.readsBackAt_required,
    Fields.readsBackAt_required]
  exact and_iff_right (NumberOrString.deserialize_serialize r.id)

/-- The data of an error is null or not there at all, and read as not there. -/
def ErrorData.ComesBack (e : ErrorData) : Prop := e.data ≠ some .null

theorem ErrorData.comesBack_iff {e : ErrorData} :
    ErrorData.fields.ReadsBackAt e ↔ e.ComesBack := by
  refine (Fields.readsBackAt_imap rfl fun _ => rfl).trans ?_
  rw [Fields.readsBackAt_and (by decide), Fields.readsBackAt_and (by decide),
    Fields.readsBackAt_required, Fields.readsBackAt_required, Fields.readsBackAt_optionalValue]
  constructor
  · rintro ⟨_, _, hdata⟩
    exact hdata
  · intro hdata
    exact ⟨Codec.deserialize_i32 e.code, rfl, hdata⟩

theorem JsonRpcError.comesBack_iff {e : JsonRpcError} :
    JsonRpcError.fields.ReadsBackAt e ↔ e.error.ComesBack := by
  refine (Fields.readsBackAt_imap rfl fun _ => rfl).trans ?_
  rw [Fields.readsBackAt_tagged (by decide), Fields.readsBackAt_and (by decide),
    Fields.readsBackAt_required, Fields.readsBackAt_required]
  exact (and_iff_right (NumberOrString.deserialize_serialize e.id)).trans ErrorData.comesBack_iff

def JsonRpcBatchResponseItem.ComesBack (resp : Resp → Prop) : JsonRpcBatchResponseItem Resp → Prop
  | .response r => resp r.result
  | .error e => e.error.ComesBack

/-- What of a message must come back; a batch of responses must not be empty. -/
def JsonRpcMessage.ComesBack (req : Req → Prop) (resp : Resp → Prop) (noti : Not → Prop) :
    JsonRpcMessage Req Resp Not → Prop
  | .request r => req r.request
  | .response r => resp r.result
  | .notification n => noti n.notification
  | .batchRequest items => ∀ item ∈ items, item.Payload req noti
  | .batchResponse items => items ≠ [] ∧ ∀ item ∈ items, item.ComesBack resp
  | .error e => e.error.ComesBack

theorem JsonRpcMessage.comesBack_congr {req req' : Req → Prop} {resp resp' : Resp → Prop}
    {noti noti' : Not → Prop} {m : JsonRpcMessage Req Resp Not} (hreq : ∀ r, req r ↔ req' r)
    (hresp : ∀ r, resp r ↔ resp' r) (hnoti : ∀ n, noti n ↔ noti' n) :
    m.ComesBack req resp noti ↔ m.ComesBack req' resp' noti' := by
  obtain rfl : req = req' := funext fun r => propext (hreq r)
  obtain rfl : resp = resp' := funext fun r => propext (hresp r)
  obtain rfl : noti = noti' := funext fun n => propext (hnoti n)
  rfl

theorem JsonRpcBatchRequestItem.comesBack_iff (hreq : MethodUnion req) (hnoti : MethodUnion noti)
    {item : JsonRpcBatchRequestItem Req Not} :
    (JsonRpcBatchRequestItem.codec req noti).ReadsBackAt item ↔
      item.Payload req.ReadsBackAt noti.ReadsBackAt := by
  have hmakes : List.Forall₂ (Makes JsonRpcBatchRequestItem.ctorIdx)
      [(JsonRpcRequest.codec req).alternative .request,
        (JsonRpcNotification.codec noti).alternative .notification] (List.range 2) :=
    .cons (Codec.alternative_makes fun _ => rfl) <|
    .cons (Codec.alternative_makes fun _ => rfl) .nil
  cases item with
  | request r =>
    refine (untagged_eq_some_iff (i := 0) hmakes List.nodup_range rfl rfl (by simp)).trans ?_
    rw [Codec.alternative_eq_some_iff fun _ _ => request.inj]
    exact JsonRpcRequest.comesBack_iff hreq
  | notification n =>
    refine (untagged_eq_some_iff (i := 1) hmakes List.nodup_range rfl rfl ?_).trans ?_
    · exact List.forall_mem_singleton.mpr (Codec.alternative_of_none (n.not_request hnoti))
    · rw [Codec.alternative_eq_some_iff fun _ _ => notification.inj]
      exact JsonRpcNotification.comesBack_iff hnoti

theorem JsonRpcBatchResponseItem.comesBack_iff {item : JsonRpcBatchResponseItem Resp} :
    (JsonRpcBatchResponseItem.codec resp).ReadsBackAt item ↔ item.ComesBack resp.ReadsBackAt := by
  have hmakes : List.Forall₂ (Makes JsonRpcBatchResponseItem.ctorIdx)
      [(Codec.struct (JsonRpcResponse.fields resp)).alternative .response,
        (Codec.struct JsonRpcError.fields).alternative .error] (List.range 2) :=
    .cons (Codec.alternative_makes fun _ => rfl) <|
    .cons (Codec.alternative_makes fun _ => rfl) .nil
  cases item with
  | response r =>
    refine (untagged_eq_some_iff (i := 0) hmakes List.nodup_range rfl rfl (by simp)).trans ?_
    rw [Codec.alternative_eq_some_iff fun _ _ => response.inj]
    exact JsonRpcResponse.comesBack_iff
  | error e =>
    refine (untagged_eq_some_iff (i := 1) hmakes List.nodup_range rfl rfl ?_).trans ?_
    · exact List.forall_mem_singleton.mpr (Codec.alternative_of_none e.not_response)
    · rw [Codec.alternative_eq_some_iff fun _ _ => error.inj]
      exact JsonRpcError.comesBack_iff

/-- An array is read as a response from its elements, which are a version, an id and a result;
a batch has none of these, even when it is empty. -/
theorem JsonRpcResponse.not_batch {α : Type} {c : Codec α} {items : List α}
    (hobject : ∀ item, ∃ o, c.serialize item = .object o) :
    (Codec.struct (JsonRpcResponse.fields resp)).deserialize (c.list.serialize items) = none := by
  by_cases hempty : items = []
  · rw [hempty]
    rfl
  · exact JsonRpcResponse.rejects_batch hobject hempty

/-- An empty batch is a batch of requests. -/
theorem JsonRpcMessage.deserialize_nil :
    (JsonRpcMessage.codec req resp noti).deserialize (.array []) = some (.batchRequest []) := rfl

theorem JsonRpcMessage.comesBack_iff (hreq : MethodUnion req) (hnoti : MethodUnion noti)
    {m : JsonRpcMessage Req Resp Not} :
    (JsonRpcMessage.codec req resp noti).ReadsBackAt m ↔
      m.ComesBack req.ReadsBackAt resp.ReadsBackAt noti.ReadsBackAt := by
  have hmakes : List.Forall₂ (Makes JsonRpcMessage.ctorIdx)
      [(JsonRpcRequest.codec req).alternative .request,
        (Codec.struct (JsonRpcResponse.fields resp)).alternative .response,
        (JsonRpcNotification.codec noti).alternative .notification,
        (JsonRpcBatchRequestItem.codec req noti).list.alternative .batchRequest,
        (JsonRpcBatchResponseItem.codec resp).list.alternative .batchResponse,
        (Codec.struct JsonRpcError.fields).alternative .error] (List.range 6) :=
    .cons (Codec.alternative_makes fun _ => rfl) <| .cons (Codec.alternative_makes fun _ => rfl) <|
    .cons (Codec.alternative_makes fun _ => rfl) <| .cons (Codec.alternative_makes fun _ => rfl) <|
    .cons (Codec.alternative_makes fun _ => rfl) <|
    .cons (Codec.alternative_makes fun _ => rfl) .nil
  cases m with
  | request r =>
    refine (untagged_eq_some_iff (i := 0) hmakes List.nodup_range rfl rfl (by simp)).trans ?_
    rw [Codec.alternative_eq_some_iff fun _ _ => request.inj]
    exact JsonRpcRequest.comesBack_iff hreq
  | response r =>
    refine (untagged_eq_some_iff (i := 1) hmakes List.nodup_range rfl rfl ?_).trans ?_
    · exact List.forall_mem_singleton.mpr (Codec.alternative_of_none (r.not_request hreq))
    · rw [Codec.alternative_eq_some_iff fun _ _ => response.inj]
      exact JsonRpcResponse.comesBack_iff
  | notification n =>
    refine (untagged_eq_some_iff (i := 2) hmakes List.nodup_range rfl rfl ?_).trans ?_
    · simp only [List.take_succ_cons, List.take_zero, List.forall_mem_cons]
      exact ⟨Codec.alternative_of_none (n.not_request hnoti),
        Codec.alternative_of_none (n.not_response hnoti), List.forall_mem_nil _⟩
    · rw [Codec.alternative_eq_some_iff fun _ _ => notification.inj]
      exact JsonRpcNotification.comesBack_iff hnoti
  | batchRequest items =>
    refine (untagged_eq_some_iff (i := 3) (u := batchRequest items)
      (v := (JsonRpcBatchRequestItem.codec req noti).list.serialize items) hmakes
      List.nodup_range rfl rfl ?_).trans ?_
    · simp only [List.take_succ_cons, List.take_zero, List.forall_mem_cons]
      exact ⟨Codec.alternative_of_none (JsonRpcRequest.rejects_batch items),
        Codec.alternative_of_none
          (JsonRpcResponse.not_batch JsonRpcBatchRequestItem.serialize_object),
        Codec.alternative_of_none (JsonRpcNotification.rejects_batch items), List.forall_mem_nil _⟩
    · rw [Codec.alternative_eq_some_iff fun _ _ => batchRequest.inj]
      exact Codec.readsBackAt_list.trans
        (forall₂_congr fun _ _ => JsonRpcBatchRequestItem.comesBack_iff hreq hnoti)
  | batchResponse items =>
    by_cases hempty : items = []
    · rw [hempty]
      refine iff_of_false (fun h => ?_) fun h => h.1 rfl
      cases deserialize_nil.symm.trans h
    · refine (untagged_eq_some_iff (i := 4) (u := batchResponse items)
        (v := (JsonRpcBatchResponseItem.codec resp).list.serialize items) hmakes
        List.nodup_range rfl rfl ?_).trans ?_
      · simp only [List.take_succ_cons, List.take_zero, List.forall_mem_cons]
        exact ⟨Codec.alternative_of_none (JsonRpcRequest.rejects_batch items),
          Codec.alternative_of_none
            (JsonRpcResponse.not_batch JsonRpcBatchResponseItem.serialize_object),
          Codec.alternative_of_none (JsonRpcNotification.rejects_batch items),
          Codec.alternative_of_none (JsonRpcBatchResponseItem.not_requests hreq hnoti hempty),
          List.forall_mem_nil _⟩
      · rw [Codec.alternative_eq_some_iff fun _ _ => batchResponse.inj]
        refine Codec.readsBackAt_list.trans ?_
        simp only [JsonRpcBatchResponseItem.comesBack_iff]
        exact (and_iff_right hempty).symm
  | error e =>
    refine (untagged_eq_some_iff (i := 5) hmakes List.nodup_range rfl rfl ?_).trans ?_
    · simp only [List.take_succ_cons, List.take_zero, List.forall_mem_cons]
      exact ⟨Codec.alternative_of_none (e.not_request hreq), Codec.alternative_of_none e.not_response,
        Codec.alternative_of_none (e.not_notification hnoti),
        Codec.alternative_of_none (Codec.list_rejects_struct _ _ e),
        Codec.alternative_of_none (Codec.list_rejects_struct _ _ e), List.forall_mem_nil _⟩
    · rw [Codec.alternative_eq_some_iff fun _ _ => error.inj]
      exact JsonRpcError.comesBack_iff

end Messages

/-- In both roles, a message comes back from the wire as it was exactly when it is no empty batch
of responses and each of its payloads comes back; and a payload does exactly when its nested
values do, its metadata is not on a message without params, a list request has params, and
the data of an error or a sampling request is not null. -/
theorem messages_come_back_iff (L : Leaves) :
    (∀ m : ClientJsonRpcMessage L.payloads, (ClientJsonRpcMessage.codec L).ReadsBackAt m ↔
      m.ComesBack ClientRequest.ComesBack ClientResult.ComesBack ClientNotification.ComesBack) ∧
    (∀ m : ServerJsonRpcMessage L.payloads, (ServerJsonRpcMessage.codec L).ReadsBackAt m ↔
      m.ComesBack ServerRequest.ComesBack ServerResult.ComesBack ServerNotification.ComesBack) := by
  constructor
  · intro m
    refine (JsonRpcMessage.comesBack_iff ClientRequest.methodUnion
      ClientNotification.methodUnion).trans ?_
    exact JsonRpcMessage.comesBack_congr (fun _ => ClientRequest.comesBack_iff)
      (fun _ => ClientResult.comesBack_iff) fun _ => ClientNotification.comesBack_iff
  · intro m
    refine (JsonRpcMessage.comesBack_iff ServerRequest.methodUnion
      ServerNotification.methodUnion).trans ?_
    exact JsonRpcMessage.comesBack_congr (fun _ => ServerRequest.comesBack_iff)
      (fun _ => ServerResult.comesBack_iff) fun _ => ServerNotification.comesBack_iff

end Rmcp
