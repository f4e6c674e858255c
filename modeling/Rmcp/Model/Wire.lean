import Rmcp.Model.Unions

/-!
# JSON-RPC messages on the wire

The message types of the model as objects and arrays, generic in the requests, results and
notifications they carry, and the messages of the two roles. A request and a notification are
flattened beside the version (and the id); a response and an error have theirs in a member of
their own. A message is untagged, and read as the first alternative that takes the value.
-/

namespace Rmcp

open Serde

variable {Req Resp Not : Type}

/-- `jsonrpc` and `id`. -/
def versionAndId : Fields RequestId :=
  (Fields.required "id" NumberOrString.codec).tagged "jsonrpc" "2.0"

/-- `jsonrpc` alone. -/
def versionOnly : Fields Unit := Fields.nil.tagged "jsonrpc" "2.0"

def JsonRpcRequest.codec (req : Flat Req) : Codec (JsonRpcRequest Req) :=
  (versionAndId.flatten req).imap (fun (id, request) => ⟨id, request⟩) fun r => (r.id, r.request)

def JsonRpcResponse.fields (resp : Codec Resp) : Fields (JsonRpcResponse Resp) :=
  (((Fields.required "id" NumberOrString.codec).and (.required "result" resp)).tagged
    "jsonrpc" "2.0").imap (fun (id, result) => ⟨id, result⟩) fun r => (r.id, r.result)

def ErrorData.fields : Fields ErrorData :=
  ((Fields.required "code" .i32).and
    ((Fields.required "message" .string).and (.optional "data" .value))).imap
    (fun (code, message, data) => ⟨code, message, data⟩) fun e => (e.code, e.message, e.data)

def JsonRpcError.fields : Fields JsonRpcError :=
  (((Fields.required "id" NumberOrString.codec).and
    (.required "error" (.struct ErrorData.fields))).tagged "jsonrpc" "2.0").imap
    (fun (id, error) => ⟨id, error⟩) fun e => (e.id, e.error)

def JsonRpcNotification.codec (noti : Flat Not) : Codec (JsonRpcNotification Not) :=
  (versionOnly.flatten noti).imap (fun (_, notification) => ⟨notification⟩)
    fun n => ((), n.notification)

def JsonRpcBatchRequestItem.codec (req : Flat Req) (noti : Flat Not) :
    Codec (JsonRpcBatchRequestItem Req Not) where
  serialize
    | .request r => (JsonRpcRequest.codec req).serialize r
    | .notification n => (JsonRpcNotification.codec noti).serialize n
  deserialize := untagged
    [(JsonRpcRequest.codec req).alternative .request,
     (JsonRpcNotification.codec noti).alternative .notification]

def JsonRpcBatchResponseItem.codec (resp : Codec Resp) : Codec (JsonRpcBatchResponseItem Resp) where
  serialize
    | .response r => (Codec.struct (JsonRpcResponse.fields resp)).serialize r
    | .error e => (Codec.struct JsonRpcError.fields).serialize e
  deserialize := untagged
    [(Codec.struct (JsonRpcResponse.fields resp)).alternative .response,
     (Codec.struct JsonRpcError.fields).alternative .error]

def JsonRpcMessage.codec (req : Flat Req) (resp : Codec Resp) (noti : Flat Not) :
    Codec (JsonRpcMessage Req Resp Not) where
  serialize
    | .request r => (JsonRpcRequest.codec req).serialize r
    | .response r => (Codec.struct (JsonRpcResponse.fields resp)).serialize r
    | .notification n => (JsonRpcNotification.codec noti).serialize n
    | .batchRequest items => (JsonRpcBatchRequestItem.codec req noti).list.serialize items
    | .batchResponse items => (JsonRpcBatchResponseItem.codec resp).list.serialize items
    | .error e => (Codec.struct JsonRpcError.fields).serialize e
  deserialize := untagged
    [(JsonRpcRequest.codec req).alternative .request,
     (Codec.struct (JsonRpcResponse.fields resp)).alternative .response,
     (JsonRpcNotification.codec noti).alternative .notification,
     (JsonRpcBatchRequestItem.codec req noti).list.alternative .batchRequest,
     (JsonRpcBatchResponseItem.codec resp).list.alternative .batchResponse,
     (Codec.struct JsonRpcError.fields).alternative .error]

/-- The members that a response is written with. -/
theorem JsonRpcResponse.serialize_fields (resp : Codec Resp) (r : JsonRpcResponse Resp) :
    (JsonRpcResponse.fields resp).serialize r = JsonRpcResponse.serialize resp.serialize r := rfl

/-! ## The messages of the two roles -/

variable (L : Leaves)

/-- The payloads as they are on the wire. -/
abbrev Leaves.payloads : Payloads where
  ClientRequest := ClientRequest L
  ClientResult := ClientResult L
  ServerRequest := ServerRequest L
  ServerResult := ServerResult L
  getMeta r := (r.extensions L).getMeta

def ClientJsonRpcMessage.codec : Codec (ClientJsonRpcMessage L.payloads) :=
  JsonRpcMessage.codec (ClientRequest.flat L) (ClientResult.codec L) ClientNotification.flat

def ServerJsonRpcMessage.codec : Codec (ServerJsonRpcMessage L.payloads) :=
  JsonRpcMessage.codec (ServerRequest.flat L) (ServerResult.codec L) ServerNotification.flat

end Rmcp
