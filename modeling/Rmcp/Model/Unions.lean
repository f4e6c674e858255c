import Rmcp.Model.Params

/-!
# Requests, notifications and results on the wire

How `serde_impl` writes and reads a request or a notification: its method, a constant, and its
params, with the metadata as one more member of them. The unions of both roles are untagged:
a request or a notification is read as the first alternative with its method, a result as the
first alternative whose members it has. The empty result is read from every object.
-/

namespace Rmcp

open Serde

structure Request (P : Type) where
  params : P
  extensions : Extensions

structure RequestOptionalParam (P : Type) where
  params : Option P
  extensions : Extensions

structure RequestNoParam where
  extensions : Extensions

/-! ## Params with metadata -/

section SerdeImpl

variable {P : Type}

/-- `WithMeta`. -/
def WithMeta.codec (rest : Flat P) : Codec (Option Meta × P) :=
  (Fields.optional "_meta" Meta.codec).flatten rest

/-- `Proxy`, with the method in front. -/
def Request.fields (method : String) (p : Fields P) : Fields (Request P) :=
  ((Fields.required "params" (WithMeta.codec p.flat)).imap (fun (m, params) => ⟨params, ⟨m⟩⟩)
    fun r => (r.extensions.metaEntry, r.params)).tagged "method" method

/-- Written as a `Proxy`, which has params always, and read as a `ProxyOptionalParam`. -/
def RequestOptionalParam.fields (method : String) (p : Fields P) :
    Fields (RequestOptionalParam P) :=
  ((Fields.nullable "params" (WithMeta.codec p.flat.option)).imap
    (fun body => ⟨body.bind (·.2), ⟨body.bind (·.1)⟩⟩)
    fun r => some (r.extensions.metaEntry, r.params)).tagged "method" method

/-- `ProxyNoParam`: the metadata is not written. -/
def RequestNoParam.fields (method : String) : Fields RequestNoParam :=
  (Fields.nil.imap (fun _ => ⟨⟨none⟩⟩) fun _ => ()).tagged "method" method

def Notification.fields (method : String) (p : Fields P) : Fields (Notification P) :=
  ((Fields.required "params" (WithMeta.codec p.flat)).imap (fun (m, params) => ⟨params, ⟨m⟩⟩)
    fun n => (n.extensions.metaEntry, n.params)).tagged "method" method

def NotificationNoParam.fields (method : String) : Fields NotificationNoParam :=
  (Fields.nil.imap (fun _ => ⟨⟨none⟩⟩) fun _ => ()).tagged "method" method

end SerdeImpl

variable (L : Leaves)

/-! ## Requests of clients -/

abbrev PingRequest := RequestNoParam
abbrev InitializeRequest := Request (InitializeRequestParam L)
abbrev CompleteRequest := Request (CompleteRequestParam L)
abbrev SetLevelRequest := Request SetLevelRequestParam
abbrev GetPromptRequest := Request GetPromptRequestParam
abbrev ListPromptsRequest := RequestOptionalParam PaginatedRequestParam
abbrev ListResourcesRequest := RequestOptionalParam PaginatedRequestParam
abbrev ListResourceTemplatesRequest := RequestOptionalParam PaginatedRequestParam
abbrev ReadResourceRequest := Request ReadResourceRequestParam
abbrev SubscribeRequest := Request SubscribeRequestParam
abbrev UnsubscribeRequest := Request UnsubscribeRequestParam
abbrev CallToolRequest := Request CallToolRequestParam
abbrev ListToolsRequest := RequestOptionalParam PaginatedRequestParam

def PingRequest.fields : Fields PingRequest := RequestNoParam.fields "ping"

def InitializeRequest.fields : Fields (InitializeRequest L) :=
  Request.fields "initialize" (InitializeRequestParam.fields L)

def CompleteRequest.fields : Fields (CompleteRequest L) :=
  Request.fields "completion/complete" (CompleteRequestParam.fields L)

def SetLevelRequest.fields : Fields SetLevelRequest :=
  Request.fields "logging/setLevel" SetLevelRequestParam.fields

def GetPromptRequest.fields : Fields GetPromptRequest :=
  Request.fields "prompts/get" GetPromptRequestParam.fields

def ListPromptsRequest.fields : Fields ListPromptsRequest :=
  RequestOptionalParam.fields "prompts/list" PaginatedRequestParam.fields

def ListResourcesRequest.fields : Fields ListResourcesRequest :=
  RequestOptionalParam.fields "resources/list" PaginatedRequestParam.fields

def ListResourceTemplatesRequest.fields : Fields ListResourceTemplatesRequest :=
  RequestOptionalParam.fields "resources/templates/list" PaginatedRequestParam.fields

def ReadResourceRequest.fields : Fields ReadResourceRequest :=
  Request.fields "resources/read" ReadResourceRequestParam.fields

def SubscribeRequest.fields : Fields SubscribeRequest :=
  Request.fields "resources/subscribe" SubscribeRequestParam.fields

def UnsubscribeRequest.fields : Fields UnsubscribeRequest :=
  Request.fields "resources/unsubscribe" UnsubscribeRequestParam.fields

def CallToolRequest.fields : Fields CallToolRequest :=
  Request.fields "tools/call" CallToolRequestParam.fields

def ListToolsRequest.fields : Fields ListToolsRequest :=
  RequestOptionalParam.fields "tools/list" PaginatedRequestParam.fields

inductive ClientRequest
  | pingRequest (r : PingRequest)
  | initializeRequest (r : InitializeRequest L)
  | completeRequest (r : CompleteRequest L)
  | setLevelRequest (r : SetLevelRequest)
  | getPromptRequest (r : GetPromptRequest)
  | listPromptsRequest (r : ListPromptsRequest)
  | listResourcesRequest (r : ListResourcesRequest)
  | listResourceTemplatesRequest (r : ListResourceTemplatesRequest)
  | readResourceRequest (r : ReadResourceRequest)
  | subscribeRequest (r : SubscribeRequest)
  | unsubscribeRequest (r : UnsubscribeRequest)
  | callToolRequest (r : CallToolRequest)
  | listToolsRequest (r : ListToolsRequest)

namespace ClientRequest

def extensions : ClientRequest L → Extensions
  | .pingRequest r => r.extensions
  | .initializeRequest r => r.extensions
  | .completeRequest r => r.extensions
  | .setLevelRequest r => r.extensions
  | .getPromptRequest r => r.extensions
  | .listPromptsRequest r => r.extensions
  | .listResourcesRequest r => r.extensions
  | .listResourceTemplatesRequest r => r.extensions
  | .readResourceRequest r => r.extensions
  | .subscribeRequest r => r.extensions
  | .unsubscribeRequest r => r.extensions
  | .callToolRequest r => r.extensions
  | .listToolsRequest r => r.extensions

def serialize : ClientRequest L → JsonObject
  | .pingRequest r => PingRequest.fields.serialize r
  | .initializeRequest r => (InitializeRequest.fields L).serialize r
  | .completeRequest r => (CompleteRequest.fields L).serialize r
  | .setLevelRequest r => SetLevelRequest.fields.serialize r
  | .getPromptRequest r => GetPromptRequest.fields.serialize r
  | .listPromptsRequest r => ListPromptsRequest.fields.serialize r
  | .listResourcesRequest r => ListResourcesRequest.fields.serialize r
  | .listResourceTemplatesRequest r => ListResourceTemplatesRequest.fields.serialize r
  | .readResourceRequest r => ReadResourceRequest.fields.serialize r
  | .subscribeRequest r => SubscribeRequest.fields.serialize r
  | .unsubscribeRequest r => UnsubscribeRequest.fields.serialize r
  | .callToolRequest r => CallToolRequest.fields.serialize r
  | .listToolsRequest r => ListToolsRequest.fields.serialize r

/-- In the order of their declaration. -/
def alternatives : List (Value → Option (ClientRequest L)) :=
  [(Codec.struct PingRequest.fields).alternative .pingRequest,
   (Codec.struct (InitializeRequest.fields L)).alternative .initializeRequest,
   (Codec.struct (CompleteRequest.fields L)).alternative .completeRequest,
   (Codec.struct SetLevelRequest.fields).alternative .setLevelRequest,
   (Codec.struct GetPromptRequest.fields).alternative .getPromptRequest,
   (Codec.struct ListPromptsRequest.fields).alternative .listPromptsRequest,
   (Codec.struct ListResourcesRequest.fields).alternative .listResourcesRequest,
   (Codec.struct ListResourceTemplatesRequest.fields).alternative .listResourceTemplatesRequest,
   (Codec.struct ReadResourceRequest.fields).alternative .readResourceRequest,
   (Codec.struct SubscribeRequest.fields).alternative .subscribeRequest,
   (Codec.struct UnsubscribeRequest.fields).alternative .unsubscribeRequest,
   (Codec.struct CallToolRequest.fields).alternative .callToolRequest,
   (Codec.struct ListToolsRequest.fields).alternative .listToolsRequest]

def flat : Flat (ClientRequest L) := ⟨serialize L, fun o => untagged (alternatives L) (.object o)⟩

end ClientRequest

/-! ## Requests of servers -/

abbrev CreateMessageRequest := Request (CreateMessageRequestParam L)
abbrev ListRootsRequest := RequestNoParam

def CreateMessageRequest.fields : Fields (CreateMessageRequest L) :=
  Request.fields "sampling/createMessage" (CreateMessageRequestParam.fields L)

def ListRootsRequest.fields : Fields ListRootsRequest := RequestNoParam.fields "roots/list"

inductive ServerRequest
  | pingRequest (r : PingRequest)
  | createMessageRequest (r : CreateMessageRequest L)
  | listRootsRequest (r : ListRootsRequest)

namespace ServerRequest

def serialize : ServerRequest L → JsonObject
  | .pingRequest r => PingRequest.fields.serialize r
  | .createMessageRequest r => (CreateMessageRequest.fields L).serialize r
  | .listRootsRequest r => ListRootsRequest.fields.serialize r

def alternatives : List (Value → Option (ServerRequest L)) :=
  [(Codec.struct PingRequest.fields).alternative .pingRequest,
   (Codec.struct (CreateMessageRequest.fields L)).alternative .createMessageRequest,
   (Codec.struct ListRootsRequest.fields).alternative .listRootsRequest]

def flat : Flat (ServerRequest L) := ⟨serialize L, fun o => untagged (alternatives L) (.object o)⟩

end ServerRequest

/-! ## Notifications -/

def CancelledNotification.fields : Fields CancelledNotification :=
  Notification.fields "notifications/cancelled" CancelledNotificationParam.fields

def ProgressNotification.fields : Fields ProgressNotification :=
  Notification.fields "notifications/progress" ProgressNotificationParam.fields

def InitializedNotification.fields : Fields NotificationNoParam :=
  NotificationNoParam.fields "notifications/initialized"

def RootsListChangedNotification.fields : Fields NotificationNoParam :=
  NotificationNoParam.fields "notifications/roots/list_changed"

def LoggingMessageNotification.fields : Fields (Notification LoggingMessageNotificationParam) :=
  Notification.fields "notifications/message" LoggingMessageNotificationParam.fields

def ResourceUpdatedNotification.fields : Fields (Notification ResourceUpdatedNotificationParam) :=
  Notification.fields "notifications/resources/updated" ResourceUpdatedNotificationParam.fields

def ResourceListChangedNotification.fields : Fields NotificationNoParam :=
  NotificationNoParam.fields "notifications/resources/list_changed"

def ToolListChangedNotification.fields : Fields NotificationNoParam :=
  NotificationNoParam.fields "notifications/tools/list_changed"

def PromptListChangedNotification.fields : Fields NotificationNoParam :=
  NotificationNoParam.fields "notifications/prompts/list_changed"

namespace ClientNotification

def serialize : ClientNotification → JsonObject
  | .cancelledNotification n => CancelledNotification.fields.serialize n
  | .progressNotification n => ProgressNotification.fields.serialize n
  | .initializedNotification n => InitializedNotification.fields.serialize n
  | .rootsListChangedNotification n => RootsListChangedNotification.fields.serialize n

def alternatives : List (Value → Option ClientNotification) :=
  [(Codec.struct CancelledNotification.fields).alternative .cancelledNotification,
   (Codec.struct ProgressNotification.fields).alternative .progressNotification,
   (Codec.struct InitializedNotification.fields).alternative .initializedNotification,
   (Codec.struct RootsListChangedNotification.fields).alternative .rootsListChangedNotification]

def flat : Flat ClientNotification := ⟨serialize, fun o => untagged alternatives (.object o)⟩

end ClientNotification

namespace ServerNotification

def serialize : ServerNotification → JsonObject
  | .cancelledNotification n => CancelledNotification.fields.serialize n
  | .progressNotification n => ProgressNotification.fields.serialize n
  | .loggingMessageNotification n => LoggingMessageNotification.fields.serialize n
  | .resourceUpdatedNotification n => ResourceUpdatedNotification.fields.serialize n
  | .resourceListChangedNotification n => ResourceListChangedNotification.fields.serialize n
  | .toolListChangedNotification n => ToolListChangedNotification.fields.serialize n
  | .promptListChangedNotification n => PromptListChangedNotification.fields.serialize n

def alternatives : List (Value → Option ServerNotification) :=
  [(Codec.struct CancelledNotification.fields).alternative .cancelledNotification,
   (Codec.struct ProgressNotification.fields).alternative .progressNotification,
   (Codec.struct LoggingMessageNotification.fields).alternative .loggingMessageNotification,
   (Codec.struct ResourceUpdatedNotification.fields).alternative .resourceUpdatedNotification,
   (Codec.struct ResourceListChangedNotification.fields).alternative
     .resourceListChangedNotification,
   (Codec.struct ToolListChangedNotification.fields).alternative .toolListChangedNotification,
   (Codec.struct PromptListChangedNotification.fields).alternative .promptListChangedNotification]

def flat : Flat ServerNotification := ⟨serialize, fun o => untagged alternatives (.object o)⟩

end ServerNotification

/-! ## Results -/

inductive ClientResult
  | createMessageResult (r : CreateMessageResult L)
  | listRootsResult (r : ListRootsResult)
  | emptyResult (r : EmptyResult)

namespace ClientResult

def serialize : ClientResult L → Value
  | .createMessageResult r => (CreateMessageResult.codec L).serialize r
  | .listRootsResult r => (Codec.struct ListRootsResult.fields).serialize r
  | .emptyResult r => (Codec.struct EmptyResult.fields).serialize r

def alternatives : List (Value → Option (ClientResult L)) :=
  [(CreateMessageResult.codec L).alternative .createMessageResult,
   (Codec.struct ListRootsResult.fields).alternative .listRootsResult,
   (Codec.struct EmptyResult.fields).alternative .emptyResult]

def codec : Codec (ClientResult L) := ⟨serialize L, untagged (alternatives L)⟩

end ClientResult

inductive ServerResult
  | initializeResult (r : InitializeResult L)
  | completeResult (r : CompleteResult)
  | getPromptResult (r : GetPromptResult L)
  | listPromptsResult (r : ListPromptsResult L)
  | listResourcesResult (r : ListResourcesResult L)
  | listResourceTemplatesResult (r : ListResourceTemplatesResult L)
  | readResourceResult (r : ReadResourceResult L)
  | callToolResult (r : CallToolResult L)
  | listToolsResult (r : ListToolsResult L)
  | emptyResult (r : EmptyResult)

namespace ServerResult

def serialize : ServerResult L → Value
  | .initializeResult r => (Codec.struct (InitializeResult.fields L)).serialize r
  | .completeResult r => (Codec.struct CompleteResult.fields).serialize r
  | .getPromptResult r => (Codec.struct (GetPromptResult.fields L)).serialize r
  | .listPromptsResult r => (Codec.struct (ListPromptsResult.fields L)).serialize r
  | .listResourcesResult r => (Codec.struct (ListResourcesResult.fields L)).serialize r
  | .listResourceTemplatesResult r =>
    (Codec.struct (ListResourceTemplatesResult.fields L)).serialize r
  | .readResourceResult r => (Codec.struct (ReadResourceResult.fields L)).serialize r
  | .callToolResult r => (Codec.struct (CallToolResult.fields L)).serialize r
  | .listToolsResult r => (Codec.struct (ListToolsResult.fields L)).serialize r
  | .emptyResult r => (Codec.struct EmptyResult.fields).serialize r

def alternatives : List (Value → Option (ServerResult L)) :=
  [(Codec.struct (InitializeResult.fields L)).alternative .initializeResult,
   (Codec.struct CompleteResult.fields).alternative .completeResult,
   (Codec.struct (GetPromptResult.fields L)).alternative .getPromptResult,
   (Codec.struct (ListPromptsResult.fields L)).alternative .listPromptsResult,
   (Codec.struct (ListResourcesResult.fields L)).alternative .listResourcesResult,
   (Codec.struct (ListResourceTemplatesResult.fields L)).alternative .listResourceTemplatesResult,
   (Codec.struct (ReadResourceResult.fields L)).alternative .readResourceResult,
   (Codec.struct (CallToolResult.fields L)).alternative .callToolResult,
   (Codec.struct (ListToolsResult.fields L)).alternative .listToolsResult,
   (Codec.struct EmptyResult.fields).alternative .emptyResult]

def codec : Codec (ServerResult L) := ⟨serialize L, untagged (alternatives L)⟩

end ServerResult

end Rmcp
