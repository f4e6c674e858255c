import Rmcp.Model.Wire

/-!
# The kind of a message on the wire

A message is read as the first of six alternatives that takes it, and its request,
notification or result as the first alternative of its union. No alternative takes what
another one wrote before it: a request has a method and an id, a notification a method and no
id, a response a result, an error neither; a batch is an array, and its first item tells which
of the two it is. The methods of a union are different, and no result is written with a member
that an earlier result needs.
-/

namespace Rmcp

open Serde

/-! ## Messages over any unions -/

section Messages

variable {Req Resp Not : Type}

/-- What a message that is no batch is: its kind, its id, the variant of its payload, and the
code of an error. -/
inductive ItemKind
  | request (id : RequestId) (variant : ℕ)
  | response (id : RequestId) (variant : ℕ)
  | notification (variant : ℕ)
  | error (id : RequestId) (code : Int32)

inductive MessageKind
  | single (item : ItemKind)
  | batchRequest (items : List ItemKind)
  | batchResponse (items : List ItemKind)

section Kind

variable (req : Req → ℕ) (resp : Resp → ℕ) (noti : Not → ℕ)

def JsonRpcRequest.item (r : JsonRpcRequest Req) : ItemKind := .request r.id (req r.request)

def JsonRpcResponse.item (r : JsonRpcResponse Resp) : ItemKind := .response r.id (resp r.result)

def JsonRpcNotification.item (n : JsonRpcNotification Not) : ItemKind :=
  .notification (noti n.notification)

def JsonRpcError.item (e : JsonRpcError) : ItemKind := .error e.id e.error.code

def JsonRpcBatchRequestItem.item : JsonRpcBatchRequestItem Req Not → ItemKind
  | .request r => r.item req
  | .notification n => n.item noti

def JsonRpcBatchResponseItem.item : JsonRpcBatchResponseItem Resp → ItemKind
  | .response r => r.item resp
  | .error e => e.item

def JsonRpcMessage.kind : JsonRpcMessage Req Resp Not → MessageKind
  | .request r => .single (r.item req)
  | .response r => .single (r.item resp)
  | .notification n => .single (n.item noti)
  | .batchRequest items => .batchRequest (items.map (·.item req noti))
  | .batchResponse items => .batchResponse (items.map (·.item resp))
  | .error e => .single e.item

end Kind

def JsonRpcMessage.EmptyBatch : JsonRpcMessage Req Resp Not → Prop
  | .batchRequest items => items = []
  | .batchResponse items => items = []
  | .request _ | .response _ | .notification _ | .error _ => False

/-- The payload of an item meets the predicate for it. -/
def JsonRpcBatchRequestItem.Payload (req : Req → Prop) (noti : Not → Prop) :
    JsonRpcBatchRequestItem Req Not → Prop
  | .request r => req r.request
  | .notification n => noti n.notification

def JsonRpcBatchResponseItem.Payload (resp : Resp → Prop) : JsonRpcBatchResponseItem Resp → Prop
  | .response r => resp r.result
  | .error _ => True

/-- All payloads of the message meet the predicate for them. -/
def JsonRpcMessage.AllPayloads (req : Req → Prop) (resp : Resp → Prop) (noti : Not → Prop) :
    JsonRpcMessage Req Resp Not → Prop
  | .request r => req r.request
  | .response r => resp r.result
  | .notification n => noti n.notification
  | .batchRequest items => ∀ item ∈ items, item.Payload req noti
  | .batchResponse items => ∀ item ∈ items, item.Payload resp
  | .error _ => True

/-- A union of requests or of notifications: it has a method and perhaps params, and is not
read without a method. -/
structure MethodUnion {U : Type} (g : Flat U) : Prop where
  names : ∀ u, ∀ m ∈ g.serialize u, m.1 ∈ ["method", "params"]
  needs : ∀ o, "method" ∉ keys o → g.deserialize o = none

variable {req : Flat Req} {resp : Codec Resp} {noti : Flat Not}
  {reqVariant : Req → ℕ} {respVariant : Resp → ℕ} {notVariant : Not → ℕ} {o : JsonObject}

/-! ### What is written is read by its own type -/

theorem versionAndId_keeps (id : RequestId) :
    versionAndId.visitMap (versionAndId.serialize id) = some id :=
  Fields.tagged_keeps _ _ (by decide)
    (Fields.required_keeps "id" (NumberOrString.deserialize_serialize id))

theorem versionOnly_keeps : versionOnly.visitMap (versionOnly.serialize ()) = some () :=
  Fields.tagged_keeps _ _ List.not_mem_nil rfl

/-- Its members are none of the version and the id. -/
theorem MethodUnion.not_mem {U : Type} {g : Flat U} (hg : MethodUnion g) {names : List String}
    (h : ∀ name ∈ ["method", "params"], name ∉ names) (u : U) : ∀ m ∈ g.serialize u, m.1 ∉ names :=
  fun m hm => h m.1 (hg.names u m hm)

theorem JsonRpcRequest.keepsAt (hreq : MethodUnion req) {r : JsonRpcRequest Req}
    (h : req.KeepsAt reqVariant r.request) :
    (JsonRpcRequest.codec req).KeepsAt (·.item reqVariant) r := by
  have hnames : ∀ m ∈ req.serialize r.request, m.1 ∉ versionAndId.names :=
    hreq.not_mem (by decide) r.request
  obtain ⟨request, hread, hvariant⟩ := Fields.flatten_keepsAt hnames (versionAndId_keeps r.id) h
  refine ⟨⟨r.id, request⟩, ?_, by simp [item, hvariant]⟩
  simp [JsonRpcRequest.codec, Codec.imap, hread]

theorem JsonRpcNotification.keepsAt (hnoti : MethodUnion noti) {n : JsonRpcNotification Not}
    (h : noti.KeepsAt notVariant n.notification) :
    (JsonRpcNotification.codec noti).KeepsAt (·.item notVariant) n := by
  have hnames : ∀ m ∈ noti.serialize n.notification, m.1 ∉ versionOnly.names :=
    hnoti.not_mem (by decide) n.notification
  obtain ⟨notification, hread, hvariant⟩ := Fields.flatten_keepsAt hnames versionOnly_keeps h
  refine ⟨⟨notification⟩, ?_, by simp [item, hvariant]⟩
  simp [JsonRpcNotification.codec, Codec.imap, hread]

theorem JsonRpcResponse.keepsAt {r : JsonRpcResponse Resp} (h : resp.KeepsAt respVariant r.result) :
    (Codec.struct (JsonRpcResponse.fields resp)).KeepsAt (·.item respVariant) r := by
  obtain ⟨result, hread, hvariant⟩ := h
  have hid := Fields.required_keeps "id" (NumberOrString.deserialize_serialize r.id)
  have hresult := Fields.required_keeps "result" hread
  have hmembers := Fields.and_keeps (by simp [Fields.required]) hid hresult
  have hfields :=
    Fields.tagged_keeps "jsonrpc" "2.0" (by simp [Fields.and, Fields.required]) hmembers
  refine ⟨⟨r.id, result⟩, ?_, by simp [item, hvariant]⟩
  simp [fields, Fields.imap, hfields]

/-- The code of an error is read again. -/
theorem ErrorData.keeps (e : ErrorData) :
    ∃ e', ErrorData.fields.visitMap (ErrorData.fields.serialize e) = some e' ∧
      e'.code = e.code := by
  obtain ⟨data, hdata⟩ : (Fields.optional "data" Codec.value).AcceptsAt e.data :=
    Fields.option_acceptsAt fun v _ => ⟨v, rfl⟩
  have hcode := Fields.required_keeps "code" (Codec.deserialize_i32 e.code)
  have hmessage := Fields.required_keeps "message" (Codec.deserialize_string e.message)
  have hmembers := Fields.and_keeps (by decide) hcode (Fields.and_keeps (by decide) hmessage hdata)
  refine ⟨⟨e.code, e.message, data⟩, ?_, rfl⟩
  simp [fields, Fields.imap, hmembers]

theorem JsonRpcError.keepsAt (e : JsonRpcError) :
    (Codec.struct JsonRpcError.fields).KeepsAt JsonRpcError.item e := by
  obtain ⟨error, hread, hcode⟩ := e.error.keeps
  have hid := Fields.required_keeps "id" (NumberOrString.deserialize_serialize e.id)
  have herror := Fields.required_keeps "error" (Codec.struct_keeps hread)
  have hmembers := Fields.and_keeps (by decide) hid herror
  have hfields := Fields.tagged_keeps "jsonrpc" "2.0" (by decide) hmembers
  refine ⟨⟨e.id, error⟩, ?_, by simp [item, hcode]⟩
  simp [fields, Fields.imap, hfields]

/-! ### What is written is read by no type before its own -/

theorem JsonRpcRequest.rejects_of_id (h : "id" ∉ keys o) :
    (JsonRpcRequest.codec req).deserialize (.object o) = none := by
  have hid : versionAndId.visitMap o = none := (Fields.needs_required "id" _).tagged o h
  simp [JsonRpcRequest.codec, Codec.imap, Fields.flatten, hid]

theorem JsonRpcRequest.rejects_of_method (hreq : MethodUnion req) (h : "method" ∉ keys o) :
    (JsonRpcRequest.codec req).deserialize (.object o) = none := by
  have hmethod : req.deserialize (without versionAndId.names o) = none :=
    hreq.needs _ (not_mem_keys_without h)
  cases hv : versionAndId.visitMap o <;>
    simp [JsonRpcRequest.codec, Codec.imap, Fields.flatten, hv, hmethod]

theorem JsonRpcNotification.rejects_of_method (hnoti : MethodUnion noti) (h : "method" ∉ keys o) :
    (JsonRpcNotification.codec noti).deserialize (.object o) = none := by
  have hmethod : noti.deserialize (without versionOnly.names o) = none :=
    hnoti.needs _ (not_mem_keys_without h)
  cases hv : versionOnly.visitMap o <;>
    simp [JsonRpcNotification.codec, Codec.imap, Fields.flatten, hv, hmethod]

theorem JsonRpcResponse.needs_result : (JsonRpcResponse.fields resp).Needs "result" :=
  Fields.Needs.imap ((Fields.needs_required "result" resp).and_right _).tagged _ _

@[simp] theorem JsonRpcResponse.keys_serialize (r : JsonRpcResponse Resp) :
    keys ((JsonRpcResponse.fields resp).serialize r) = ["jsonrpc", "id", "result"] := rfl

@[simp] theorem JsonRpcError.keys_serialize (e : JsonRpcError) :
    keys (JsonRpcError.fields.serialize e) = ["jsonrpc", "id", "error"] := rfl

/-- A notification has a version and the members of its union. -/
theorem JsonRpcNotification.not_mem_keys (hnoti : MethodUnion noti) (n : JsonRpcNotification Not)
    {name : String} (h : name ∉ ["jsonrpc", "method", "params"]) :
    name ∉ keys (versionOnly.serialize () ++ noti.serialize n.notification) := by
  intro hmem
  obtain ⟨m, hm, rfl⟩ := List.mem_map.mp hmem
  rcases List.mem_append.mp hm with hversion | hmembers
  · have hname : m.1 = "jsonrpc" := List.mem_singleton.mp (versionOnly.mem_names () m hversion)
    exact h (by simp [hname])
  · exact h (List.mem_cons_of_mem _ (hnoti.names _ m hmembers))

theorem JsonRpcNotification.not_request (hnoti : MethodUnion noti) (n : JsonRpcNotification Not) :
    (JsonRpcRequest.codec req).deserialize ((JsonRpcNotification.codec noti).serialize n) = none :=
  JsonRpcRequest.rejects_of_id (n.not_mem_keys hnoti (by decide))

theorem JsonRpcNotification.not_response (hnoti : MethodUnion noti) (n : JsonRpcNotification Not) :
    (Codec.struct (JsonRpcResponse.fields resp)).deserialize
      ((JsonRpcNotification.codec noti).serialize n) = none :=
  JsonRpcResponse.needs_result _ (n.not_mem_keys hnoti (by decide))

theorem JsonRpcResponse.not_request (hreq : MethodUnion req) (r : JsonRpcResponse Resp) :
    (JsonRpcRequest.codec req).deserialize
      ((Codec.struct (JsonRpcResponse.fields resp)).serialize r) = none :=
  JsonRpcRequest.rejects_of_method hreq (by simp)

theorem JsonRpcError.not_request (hreq : MethodUnion req) (e : JsonRpcError) :
    (JsonRpcRequest.codec req).deserialize ((Codec.struct JsonRpcError.fields).serialize e) =
      none :=
  JsonRpcRequest.rejects_of_method hreq (by simp)

theorem JsonRpcError.not_response (e : JsonRpcError) :
    (Codec.struct (JsonRpcResponse.fields resp)).deserialize
      ((Codec.struct JsonRpcError.fields).serialize e) = none :=
  JsonRpcResponse.needs_result _ (by simp)

theorem JsonRpcError.not_notification (hnoti : MethodUnion noti) (e : JsonRpcError) :
    (JsonRpcNotification.codec noti).deserialize ((Codec.struct JsonRpcError.fields).serialize e) =
      none :=
  JsonRpcNotification.rejects_of_method hnoti (by simp)

/-- A request is an object. -/
theorem JsonRpcRequest.rejects_batch {α : Type} {c : Codec α} (items : List α) :
    (JsonRpcRequest.codec req).deserialize (c.list.serialize items) = none := rfl

theorem JsonRpcNotification.rejects_batch {α : Type} {c : Codec α} (items : List α) :
    (JsonRpcNotification.codec noti).deserialize (c.list.serialize items) = none := rfl

/-- A batch that is not empty is no response: its first item is not the version. -/
theorem JsonRpcResponse.rejects_batch {α : Type} {c : Codec α} {items : List α}
    (hobject : ∀ item, ∃ o, c.serialize item = .object o) (hne : items ≠ []) :
    (Codec.struct (JsonRpcResponse.fields resp)).deserialize (c.list.serialize items) = none := by
  obtain ⟨item, rest, rfl⟩ := List.exists_cons_of_ne_nil hne
  obtain ⟨o, ho⟩ := hobject item
  simp only [Codec.list, List.map_cons, ho]
  rfl

/-! ### Items and messages -/

theorem JsonRpcBatchRequestItem.keepsAt (hreq : MethodUnion req) (hnoti : MethodUnion noti)
    {item : JsonRpcBatchRequestItem Req Not}
    (h : item.Payload (req.KeepsAt reqVariant) (noti.KeepsAt notVariant)) :
    (JsonRpcBatchRequestItem.codec req noti).KeepsAt (·.item reqVariant notVariant) item := by
  cases item with
  | request r =>
    obtain ⟨r', hread, hitem⟩ := JsonRpcRequest.keepsAt hreq h
    exact ⟨.request r', untagged_take hread, hitem⟩
  | notification n =>
    obtain ⟨n', hread, hitem⟩ := JsonRpcNotification.keepsAt hnoti h
    refine ⟨.notification n', ?_, hitem⟩
    exact (untagged_skip (n.not_request hnoti)).trans (untagged_take hread)

theorem JsonRpcBatchResponseItem.keepsAt {item : JsonRpcBatchResponseItem Resp}
    (h : item.Payload (resp.KeepsAt respVariant)) :
    (JsonRpcBatchResponseItem.codec resp).KeepsAt (·.item respVariant) item := by
  cases item with
  | response r =>
    obtain ⟨r', hread, hitem⟩ := JsonRpcResponse.keepsAt h
    exact ⟨.response r', untagged_take hread, hitem⟩
  | error e =>
    obtain ⟨e', hread, hitem⟩ := JsonRpcError.keepsAt e
    exact ⟨.error e', (untagged_skip e.not_response).trans (untagged_take hread), hitem⟩

theorem JsonRpcBatchRequestItem.serialize_object (item : JsonRpcBatchRequestItem Req Not) :
    ∃ o, (JsonRpcBatchRequestItem.codec req noti).serialize item = .object o := by
  cases item <;> exact ⟨_, rfl⟩

theorem JsonRpcBatchResponseItem.serialize_object (item : JsonRpcBatchResponseItem Resp) :
    ∃ o, (JsonRpcBatchResponseItem.codec resp).serialize item = .object o := by
  cases item <;> exact ⟨_, rfl⟩

/-- An item of a batch of responses is no item of a batch of requests: it has no method. -/
theorem JsonRpcBatchResponseItem.not_request_item (hreq : MethodUnion req)
    (hnoti : MethodUnion noti) (item : JsonRpcBatchResponseItem Resp) :
    (JsonRpcBatchRequestItem.codec req noti).deserialize
      ((JsonRpcBatchResponseItem.codec resp).serialize item) = none := by
  obtain ⟨o, ho, hmethod⟩ : ∃ o,
      (JsonRpcBatchResponseItem.codec resp).serialize item = .object o ∧ "method" ∉ keys o := by
    cases item <;> exact ⟨_, rfl, by simp⟩
  rw [ho]
  exact (untagged_skip (JsonRpcRequest.rejects_of_method hreq hmethod)).trans
    (untagged_skip (JsonRpcNotification.rejects_of_method hnoti hmethod))

theorem JsonRpcBatchResponseItem.not_requests (hreq : MethodUnion req) (hnoti : MethodUnion noti)
    {items : List (JsonRpcBatchResponseItem Resp)} (hne : items ≠ []) :
    (JsonRpcBatchRequestItem.codec req noti).list.deserialize
      ((JsonRpcBatchResponseItem.codec resp).list.serialize items) = none := by
  obtain ⟨item, rest, rfl⟩ := List.exists_cons_of_ne_nil hne
  exact Codec.list_rejects (item.not_request_item hreq hnoti)

/-- Every message but an empty batch is read as a message of the same kind, if each of its
payloads is read as one of the same variant. -/
theorem JsonRpcMessage.keepsAt (hreq : MethodUnion req) (hnoti : MethodUnion noti)
    {m : JsonRpcMessage Req Resp Not} (hm : ¬ m.EmptyBatch)
    (h : m.AllPayloads (req.KeepsAt reqVariant) (resp.KeepsAt respVariant)
      (noti.KeepsAt notVariant)) :
    (JsonRpcMessage.codec req resp noti).KeepsAt (·.kind reqVariant respVariant notVariant) m := by
  cases m with
  | request r =>
    obtain ⟨r', hread, hitem⟩ := JsonRpcRequest.keepsAt hreq h
    refine ⟨.request r', ?_, by simp [kind, hitem]⟩
    simp only [codec, untagged_take hread]
  | response r =>
    obtain ⟨r', hread, hitem⟩ := JsonRpcResponse.keepsAt h
    refine ⟨.response r', ?_, by simp [kind, hitem]⟩
    simp only [codec, untagged_skip (r.not_request hreq), untagged_take hread]
  | notification n =>
    obtain ⟨n', hread, hitem⟩ := JsonRpcNotification.keepsAt hnoti h
    refine ⟨.notification n', ?_, by simp [kind, hitem]⟩
    simp only [codec, untagged_skip (n.not_request hnoti), untagged_skip (n.not_response hnoti),
      untagged_take hread]
  | batchRequest items =>
    obtain ⟨items', hread, hitems⟩ :=
      Codec.list_keeps fun item hitem => JsonRpcBatchRequestItem.keepsAt hreq hnoti (h item hitem)
    refine ⟨.batchRequest items', ?_, by simpa [kind] using hitems⟩
    have hresponse : (Codec.struct (JsonRpcResponse.fields resp)).deserialize
        ((JsonRpcBatchRequestItem.codec req noti).list.serialize items) = none :=
      JsonRpcResponse.rejects_batch JsonRpcBatchRequestItem.serialize_object hm
    simp only [codec, untagged_skip (JsonRpcRequest.rejects_batch _), untagged_skip hresponse,
      untagged_skip (JsonRpcNotification.rejects_batch _), untagged_take hread]
  | batchResponse items =>
    obtain ⟨items', hread, hitems⟩ :=
      Codec.list_keeps fun item hitem => JsonRpcBatchResponseItem.keepsAt (h item hitem)
    refine ⟨.batchResponse items', ?_, by simpa [kind] using hitems⟩
    have hresponse : (Codec.struct (JsonRpcResponse.fields resp)).deserialize
        ((JsonRpcBatchResponseItem.codec resp).list.serialize items) = none :=
      JsonRpcResponse.rejects_batch JsonRpcBatchResponseItem.serialize_object hm
    simp only [codec, untagged_skip (JsonRpcRequest.rejects_batch _), untagged_skip hresponse,
      untagged_skip (JsonRpcNotification.rejects_batch _),
      untagged_skip (JsonRpcBatchResponseItem.not_requests hreq hnoti hm), untagged_take hread]
  | error e =>
    obtain ⟨e', hread, hitem⟩ := JsonRpcError.keepsAt e
    refine ⟨.error e', ?_, by simp [kind, hitem]⟩
    simp only [codec, untagged_skip (e.not_request hreq), untagged_skip e.not_response,
      untagged_skip (e.not_notification hnoti), untagged_skip (Codec.list_rejects_struct _ _ e),
      untagged_take hread]

end Messages

end Rmcp
