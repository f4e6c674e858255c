import Rmcp.Model.Message
import Rmcp.Support.Serde

/-!
# Params and results

The `params` structs of the requests and notifications and the result structs of both roles,
with the names and the order of their members on the wire. The types nested in them that say
nothing about the struct around them (capabilities, content, tools and the like) are
parameters, `Leaves`.
-/

namespace Rmcp

open Serde

/-- The nested types, and how each is written and read. -/
structure Leaves where
  {ClientCapabilities ServerCapabilities Reference Content Prompt PromptMessage Resource : Type}
  {ResourceTemplate ResourceContents Tool ModelPreferences F32 : Type}
  clientCapabilities : Codec ClientCapabilities
  serverCapabilities : Codec ServerCapabilities
  reference : Codec Reference
  content : Codec Content
  prompt : Codec Prompt
  promptMessage : Codec PromptMessage
  resource : Codec Resource
  resourceTemplate : Codec ResourceTemplate
  resourceContents : Codec ResourceContents
  tool : Codec Tool
  modelPreferences : Codec ModelPreferences
  f32 : Codec F32

/-! ## Common types -/

namespace NumberOrString

def codec : Codec NumberOrString := ⟨serialize, fun v => (deserialize v).toOption⟩

theorem deserialize_serialize (id : NumberOrString) :
    codec.deserialize (codec.serialize id) = some id := by
  cases id with
  | number n => simp [codec, serialize, deserialize, Number.asU64, Except.toOption]
  | string s => rfl

end NumberOrString

def ProgressToken.codec : Codec ProgressToken := NumberOrString.codec.imap .mk (·.value)

def Meta.codec : Codec Meta := Codec.object.imap .mk (·.members)

/-- `ProtocolVersion`; any string is one. -/
structure ProtocolVersion where
  version : String

def ProtocolVersion.codec : Codec ProtocolVersion := Codec.string.imap .mk (·.version)

structure Implementation where
  name : String
  version : String

def Implementation.fields : Fields Implementation :=
  ((Fields.required "name" .string).and (.required "version" .string)).imap
    (fun (name, version) => ⟨name, version⟩) fun i => (i.name, i.version)

def LoggingLevel.name : LoggingLevel → String
  | .debug => "debug"
  | .info => "info"
  | .notice => "notice"
  | .warning => "warning"
  | .error => "error"
  | .critical => "critical"
  | .alert => "alert"
  | .emergency => "emergency"

def LoggingLevel.codec : Codec LoggingLevel :=
  .unitEnum name [.debug, .info, .notice, .warning, .error, .critical, .alert, .emergency]

inductive Role
  | user
  | assistant
deriving DecidableEq

def Role.name : Role → String
  | .user => "user"
  | .assistant => "assistant"

def Role.codec : Codec Role := .unitEnum name [.user, .assistant]

inductive ContextInclusion
  | allServers
  | none
  | thisServer
deriving DecidableEq

def ContextInclusion.name : ContextInclusion → String
  | .allServers => "allServers"
  | .none => "none"
  | .thisServer => "thisServer"

def ContextInclusion.codec : Codec ContextInclusion :=
  .unitEnum name [.allServers, .none, .thisServer]

variable (L : Leaves)

structure SamplingMessage where
  role : Role
  content : L.Content

def SamplingMessage.fields : Fields (SamplingMessage L) :=
  ((Fields.required "role" Role.codec).and (.required "content" L.content)).imap
    (fun (role, content) => ⟨role, content⟩) fun m => (m.role, m.content)

/-! ## Params of requests -/

structure InitializeRequestParam where
  protocolVersion : ProtocolVersion
  capabilities : L.ClientCapabilities
  clientInfo : Implementation

def InitializeRequestParam.fields : Fields (InitializeRequestParam L) :=
  ((Fields.required "protocolVersion" ProtocolVersion.codec).and
    ((Fields.required "capabilities" L.clientCapabilities).and
      (.required "clientInfo" (.struct Implementation.fields)))).imap
    (fun (protocolVersion, capabilities, clientInfo) => ⟨protocolVersion, capabilities, clientInfo⟩)
    fun p => (p.protocolVersion, p.capabilities, p.clientInfo)

structure ArgumentInfo where
  name : String
  value : String

def ArgumentInfo.fields : Fields ArgumentInfo :=
  ((Fields.required "name" .string).and (.required "value" .string)).imap
    (fun (name, value) => ⟨name, value⟩) fun a => (a.name, a.value)

structure CompleteRequestParam where
  ref : L.Reference
  argument : ArgumentInfo

def CompleteRequestParam.fields : Fields (CompleteRequestParam L) :=
  ((Fields.required "ref" L.reference).and
    (.required "argument" (.struct ArgumentInfo.fields))).imap
    (fun (ref, argument) => ⟨ref, argument⟩) fun p => (p.ref, p.argument)

structure SetLevelRequestParam where
  level : LoggingLevel

def SetLevelRequestParam.fields : Fields SetLevelRequestParam :=
  (Fields.required "level" LoggingLevel.codec).imap .mk (·.level)

structure GetPromptRequestParam where
  name : String
  arguments : Option JsonObject

def GetPromptRequestParam.fields : Fields GetPromptRequestParam :=
  ((Fields.required "name" .string).and (.optional "arguments" .object)).imap
    (fun (name, arguments) => ⟨name, arguments⟩) fun p => (p.name, p.arguments)

structure PaginatedRequestParam where
  cursor : Option String

def PaginatedRequestParam.fields : Fields PaginatedRequestParam :=
  (Fields.optional "cursor" .string).imap .mk (·.cursor)

structure ReadResourceRequestParam where
  uri : String

def ReadResourceRequestParam.fields : Fields ReadResourceRequestParam :=
  (Fields.required "uri" .string).imap .mk (·.uri)

structure SubscribeRequestParam where
  uri : String

def SubscribeRequestParam.fields : Fields SubscribeRequestParam :=
  (Fields.required "uri" .string).imap .mk (·.uri)

structure UnsubscribeRequestParam where
  uri : String

def UnsubscribeRequestParam.fields : Fields UnsubscribeRequestParam :=
  (Fields.required "uri" .string).imap .mk (·.uri)

structure CallToolRequestParam where
  name : String
  arguments : Option JsonObject

def CallToolRequestParam.fields : Fields CallToolRequestParam :=
  ((Fields.required "name" .string).and (.optional "arguments" .object)).imap
    (fun (name, arguments) => ⟨name, arguments⟩) fun p => (p.name, p.arguments)

structure CreateMessageRequestParam where
  messages : List (SamplingMessage L)
  modelPreferences : Option L.ModelPreferences
  systemPrompt : Option String
  includeContext : Option ContextInclusion
  temperature : Option L.F32
  maxTokens : UInt32
  stopSequences : Option (List String)
  metadata : Option Value

def CreateMessageRequestParam.fields : Fields (CreateMessageRequestParam L) :=
  ((Fields.required "messages" (.list (.struct (SamplingMessage.fields L)))).and
    ((Fields.optional "modelPreferences" L.modelPreferences).and
      ((Fields.optional "systemPrompt" .string).and
        ((Fields.optional "includeContext" ContextInclusion.codec).and
          ((Fields.optional "temperature" L.f32).and
            ((Fields.required "maxTokens" .u32).and
              ((Fields.optional "stopSequences" (.list .string)).and
                (.optional "metadata" .value)))))))).imap
    (fun (messages, modelPreferences, systemPrompt, includeContext, temperature, maxTokens,
        stopSequences, metadata) =>
      ⟨messages, modelPreferences, systemPrompt, includeContext, temperature, maxTokens,
        stopSequences, metadata⟩)
    fun p => (p.messages, p.modelPreferences, p.systemPrompt, p.includeContext, p.temperature,
      p.maxTokens, p.stopSequences, p.metadata)

/-! ## Params of notifications -/

/-- The reason is written even when there is none. -/
def CancelledNotificationParam.fields : Fields CancelledNotificationParam :=
  ((Fields.required "requestId" NumberOrString.codec).and (.nullable "reason" .string)).imap
    (fun (requestId, reason) => ⟨requestId, reason⟩) fun p => (p.requestId, p.reason)

def ProgressNotificationParam.fields : Fields ProgressNotificationParam :=
  ((Fields.required "progressToken" ProgressToken.codec).and
    ((Fields.required "progress" .u32).and
      ((Fields.optional "total" .u32).and (.optional "message" .string)))).imap
    (fun (progressToken, progress, total, message) => ⟨progressToken, progress, total, message⟩)
    fun p => (p.progressToken, p.progress, p.total, p.message)

def LoggingMessageNotificationParam.fields : Fields LoggingMessageNotificationParam :=
  ((Fields.required "level" LoggingLevel.codec).and
    ((Fields.optional "logger" .string).and (.required "data" .value))).imap
    (fun (level, logger, data) => ⟨level, logger, data⟩) fun p => (p.level, p.logger, p.data)

def ResourceUpdatedNotificationParam.fields : Fields ResourceUpdatedNotificationParam :=
  (Fields.required "uri" .string).imap .mk (·.uri)

/-! ## Results of clients -/

structure CreateMessageResult where
  model : String
  stopReason : Option String
  message : SamplingMessage L

/-- The role and the content stand beside the model. -/
def CreateMessageResult.codec : Codec (CreateMessageResult L) :=
  (((Fields.required "model" .string).and (.optional "stopReason" .string)).flatten
    (SamplingMessage.fields L).flat).imap
    (fun ((model, stopReason), message) => ⟨model, stopReason, message⟩)
    fun r => ((r.model, r.stopReason), r.message)

structure Root where
  uri : String
  name : Option String

def Root.fields : Fields Root :=
  ((Fields.required "uri" .string).and (.optional "name" .string)).imap
    (fun (uri, name) => ⟨uri, name⟩) fun r => (r.uri, r.name)

structure ListRootsResult where
  roots : List Root

def ListRootsResult.fields : Fields ListRootsResult :=
  (Fields.required "roots" (.list (.struct Root.fields))).imap .mk (·.roots)

/-! ## Results of servers -/

structure InitializeResult where
  protocolVersion : ProtocolVersion
  capabilities : L.ServerCapabilities
  serverInfo : Implementation
  instructions : Option String

def InitializeResult.fields : Fields (InitializeResult L) :=
  ((Fields.required "protocolVersion" ProtocolVersion.codec).and
    ((Fields.required "capabilities" L.serverCapabilities).and
      ((Fields.required "serverInfo" (.struct Implementation.fields)).and
        (.optional "instructions" .string)))).imap
    (fun (protocolVersion, capabilities, serverInfo, instructions) =>
      ⟨protocolVersion, capabilities, serverInfo, instructions⟩)
    fun r => (r.protocolVersion, r.capabilities, r.serverInfo, r.instructions)

structure CompletionInfo where
  values : List String
  total : Option UInt32
  hasMore : Option Bool

def CompletionInfo.fields : Fields CompletionInfo :=
  ((Fields.required "values" (.list .string)).and
    ((Fields.optional "total" .u32).and (.optional "hasMore" .bool))).imap
    (fun (values, total, hasMore) => ⟨values, total, hasMore⟩)
    fun i => (i.values, i.total, i.hasMore)

structure CompleteResult where
  completion : CompletionInfo

def CompleteResult.fields : Fields CompleteResult :=
  (Fields.required "completion" (.struct CompletionInfo.fields)).imap .mk (·.completion)

structure GetPromptResult where
  description : Option String
  messages : List L.PromptMessage

def GetPromptResult.fields : Fields (GetPromptResult L) :=
  ((Fields.optional "description" .string).and (.required "messages" (.list L.promptMessage))).imap
    (fun (description, messages) => ⟨description, messages⟩) fun r => (r.description, r.messages)

/-- `paginated_result!`. -/
structure PaginatedResult (α : Type) where
  nextCursor : Option String
  items : List α

/-- `items` is the name that the macro is given for the items. -/
def PaginatedResult.fields {α : Type} (items : String) (c : Codec α) : Fields (PaginatedResult α) :=
  ((Fields.optional "nextCursor" .string).and (.required items (.list c))).imap
    (fun (nextCursor, items) => ⟨nextCursor, items⟩) fun r => (r.nextCursor, r.items)

abbrev ListPromptsResult := PaginatedResult L.Prompt

abbrev ListPromptsResult.fields : Fields (ListPromptsResult L) :=
  PaginatedResult.fields "prompts" L.prompt

abbrev ListResourcesResult := PaginatedResult L.Resource

abbrev ListResourcesResult.fields : Fields (ListResourcesResult L) :=
  PaginatedResult.fields "resources" L.resource

abbrev ListResourceTemplatesResult := PaginatedResult L.ResourceTemplate

abbrev ListResourceTemplatesResult.fields : Fields (ListResourceTemplatesResult L) :=
  PaginatedResult.fields "resourceTemplates" L.resourceTemplate

abbrev ListToolsResult := PaginatedResult L.Tool

abbrev ListToolsResult.fields : Fields (ListToolsResult L) :=
  PaginatedResult.fields "tools" L.tool

structure ReadResourceResult where
  contents : List L.ResourceContents

def ReadResourceResult.fields : Fields (ReadResourceResult L) :=
  (Fields.required "contents" (.list L.resourceContents)).imap .mk (·.contents)

structure CallToolResult where
  content : List L.Content
  isError : Option Bool

def CallToolResult.fields : Fields (CallToolResult L) :=
  ((Fields.required "content" (.list L.content)).and (.optional "isError" .bool)).imap
    (fun (content, isError) => ⟨content, isError⟩) fun r => (r.content, r.isError)

/-- `EmptyObject`. -/
structure EmptyResult where

def EmptyResult.fields : Fields EmptyResult := Fields.nil.imap (fun _ => ⟨⟩) fun _ => ()

end Rmcp
