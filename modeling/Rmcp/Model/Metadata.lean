import Rmcp.Model.SerdeImpl

/-!
# Params and metadata on the wire

What becomes of the params and the metadata of a message that is written and read again, for
each of the five shapes. A request or a notification with params keeps both. A list request that
has no params is written with an empty object, which its params are read from; and params that
are not read are taken for none. A message without params is written without its metadata, and
its metadata is not looked for.

Results:
1. `metadata_separate`: messages with params.
2. `optional_params_kept_iff`: the list requests that are read as they were written.
3. `optional_params_checked_iff`: the params that a list request checks.
4. `no_param_metadata_iff`: messages without params.
-/

namespace Rmcp

open Serde

namespace JsonObject

theorem get_of_member {name : String} {o : JsonObject} {v : Option Value}
    (h : member name o = some v) : get name o = v := by
  induction o with
  | nil =>
    cases h
    rfl
  | cons m rest ih =>
    obtain ⟨k, w⟩ := m
    by_cases hk : k = name
    · subst hk
      have hfilter : ((k, w) :: rest).filter (·.1 = k) = (k, w) :: rest.filter (·.1 = k) := by simp
      simp only [member, hfilter] at h
      cases hrest : rest.filter (·.1 = k) with
      | nil =>
        rw [hrest] at h
        cases h
        simp [get]
      | cons =>
        rw [hrest] at h
        cases h
    · have hrest : member name ((k, w) :: rest) = member name rest := by
        simp [member, hk]
      rw [hrest] at h
      simpa [get, Ne.symm hk] using ih h

end JsonObject

/-! ## Params with metadata -/

/-- The metadata that the member `_meta` stands for. -/
def Meta.IsRead : Option Value → Option Meta → Prop
  | none, m | some .null, m => m = none
  | some (.object members), m => m = some ⟨members⟩
  | some _, _ => False

namespace WithMeta

/-- The metadata of an object of params, if it has one that can be read. -/
def readMeta (o : JsonObject) : Option (Option Meta) :=
  (Fields.optional "_meta" Meta.codec).visitMap o

theorem isRead_of_readMeta {o : JsonObject} {m : Option Meta} (h : readMeta o = some m) :
    Meta.IsRead (JsonObject.get "_meta" o) m := by
  obtain ⟨v, hmember, hv⟩ := Option.bind_eq_some_iff.mp h
  rw [JsonObject.get_of_member hmember]
  cases v with
  | none =>
    cases hv
    rfl
  | some v =>
    cases v with
    | null | object =>
      cases hv
      rfl
    | bool | number | string | array => cases hv

variable {P : Type} {rest : Flat P}

@[simp] theorem deserialize_object (o : JsonObject) :
    (codec rest).deserialize (.object o) =
      (readMeta o).bind fun m => (rest.deserialize (without ["_meta"] o)).map (m, ·) := rfl

theorem deserialize_eq_some {v : Value} {m : Option Meta} {params : P} :
    (codec rest).deserialize v = some (m, params) ↔
      ∃ o, v = .object o ∧ readMeta o = some m ∧
        rest.deserialize (without ["_meta"] o) = some params := by
  constructor
  · intro h
    cases v with
    | object o =>
      obtain ⟨m', hmeta, h⟩ := Option.bind_eq_some_iff.mp h
      obtain ⟨params', hparams, h⟩ := Option.map_eq_some_iff.mp h
      cases h
      exact ⟨o, rfl, hmeta, hparams⟩
    | null | bool | number | string | array => cases h
  · rintro ⟨o, rfl, hmeta, hparams⟩
    simp [hmeta, hparams]

/-- The metadata is read as it is written. -/
theorem readMeta_serialize (m : Option Meta) :
    readMeta ((Fields.optional "_meta" Meta.codec).serialize m) = some m := by
  cases m with
  | none => exact Fields.option_keeps_none
  | some m =>
    have hne : Meta.codec.serialize m ≠ .null := by
      intro hnull
      cases hnull
    exact Fields.option_keeps_some hne rfl

/-- The params are told apart from the metadata that they are written with. -/
theorem deserialize_serialize {m : Option Meta} {params params' : P}
    (hnames : ∀ member ∈ rest.serialize params, member.1 ≠ "_meta")
    (h : rest.deserialize (rest.serialize params) = some params') :
    (codec rest).deserialize ((codec rest).serialize (m, params)) = some (m, params') :=
  Fields.flatten_keeps (fun member hmem => by simpa [Fields.option] using hnames member hmem)
    (readMeta_serialize m) h

end WithMeta

namespace SerdeImpl

variable {M P : Type}

/-! ## Messages with params -/

/-- The params are written without a member `_meta`, and read again. -/
structure Separate (params : Flat P) (p : P) : Prop where
  noMeta : ∀ member ∈ params.serialize p, member.1 ≠ "_meta"
  accepts : params.deserialize (params.serialize p) = some p

/-- The params and the metadata are what the member `params` of the message says. -/
def ReadFrom (params : Flat P) (o : JsonObject) (p : P) (m : Option Meta) : Prop :=
  ∃ members, JsonObject.get "params" o = some (.object members) ∧
    params.deserialize (without ["_meta"] members) = some p ∧
    Meta.IsRead (JsonObject.get "_meta" members) m

theorem Proxy.keeps (method : Method M) (rest : Flat P) (m : M) (entry : Option Meta) {p p' : P}
    (hnames : ∀ member ∈ rest.serialize p, member.1 ≠ "_meta")
    (h : rest.deserialize (rest.serialize p) = some p') :
    (Proxy.fields method.codec rest).visitMap
      ((Proxy.fields method.codec rest).serialize (m, entry, p)) = some (m, entry, p') :=
  Fields.and_keeps (by simp [Fields.required]) (Fields.required_keeps "method" (method.keeps m))
    (Fields.required_keeps "params" (WithMeta.deserialize_serialize hnames h))

theorem readFrom_of_proxy {method : Codec M} {params : Flat P} {o : JsonObject} {m : M}
    {entry : Option Meta} {p : P}
    (h : (Proxy.fields method params).visitMap o = some (m, entry, p)) :
    ReadFrom params o p entry := by
  obtain ⟨m', -, h⟩ := Option.bind_eq_some_iff.mp h
  obtain ⟨body, hparams, h⟩ := Option.map_eq_some_iff.mp h
  cases h
  obtain ⟨v, hmember, hv⟩ := Option.bind_eq_some_iff.mp hparams
  obtain ⟨v, rfl, hbody⟩ := Option.bind_eq_some_iff.mp hv
  obtain ⟨members, rfl, hmeta, hread⟩ := WithMeta.deserialize_eq_some.mp hbody
  exact ⟨members, JsonObject.get_of_member hmember, hread, WithMeta.isRead_of_readMeta hmeta⟩

/-- A request or a notification with params is read as it was written, and what is read of an
object is what its params say: the metadata is `_meta`, and the rest are the params. -/
theorem metadata_separate (method : Method M) (params : Flat P) :
    (∀ r : Request M P, Separate params r.params →
      (Request.codec method params).deserialize ((Request.codec method params).serialize r) =
        some r) ∧
    (∀ o r, (Request.codec method params).deserialize (.object o) = some r →
      ReadFrom params o r.params r.extensions.metaEntry) ∧
    (∀ n : Notification M P, Separate params n.params →
      (Notification.codec method params).deserialize
        ((Notification.codec method params).serialize n) = some n) ∧
    (∀ o n, (Notification.codec method params).deserialize (.object o) = some n →
      ReadFrom params o n.params n.extensions.metaEntry) := by
  refine ⟨fun r h => ?_, fun o r h => ?_, fun n h => ?_, fun o n h => ?_⟩
  · have hkeeps := Proxy.keeps method params r.method r.extensions.metaEntry h.noMeta h.accepts
    simp [Request.codec, Codec.imap, hkeeps]
  · obtain ⟨⟨m, entry, p⟩, hproxy, rfl⟩ := Option.map_eq_some_iff.mp h
    exact readFrom_of_proxy hproxy
  · have hkeeps := Proxy.keeps method params n.method n.extensions.metaEntry h.noMeta h.accepts
    simp [Notification.codec, Codec.imap, hkeeps]
  · obtain ⟨⟨m, entry, p⟩, hproxy, rfl⟩ := Option.map_eq_some_iff.mp h
    exact readFrom_of_proxy hproxy

/-- `P = JsonObject`. -/
def objectParams : Flat JsonObject := ⟨id, some⟩

/-- The request of any method, with metadata. -/
def keyRequest : Request String JsonObject :=
  ⟨"request", [("key", .string "value")], ⟨some ⟨[("progressToken", .number (.posInt 1))]⟩⟩⟩

theorem metadata_separate_keyRequest :
    (Request.codec .string objectParams).deserialize
        (.object [("method", .string "request"), ("params", .object
          [("_meta", .object [("progressToken", .number (.posInt 1))]),
           ("key", .string "value")])]) = some keyRequest ∧
      ReadFrom objectParams
        [("method", .string "request"), ("params", .object
          [("_meta", .object [("progressToken", .number (.posInt 1))]),
           ("key", .string "value")])]
        keyRequest.params keyRequest.extensions.metaEntry := by
  obtain ⟨hkeeps, hreads, -⟩ := metadata_separate Method.string objectParams
  have hseparate : Separate objectParams keyRequest.params := by
    refine ⟨fun member hmem => ?_, rfl⟩
    rw [List.mem_singleton.mp hmem]
    decide
  have hkept := hkeeps keyRequest hseparate
  exact ⟨hkept, hreads _ _ hkept⟩

/-! ## Requests with optional params -/

theorem ProxyOptionalParam.keeps (method : Method M) (params : Flat P) (m : M)
    (entry : Option Meta) {p p' : Option P}
    (hnames : ∀ member ∈ params.option.serialize p, member.1 ≠ "_meta")
    (h : params.option.deserialize (params.option.serialize p) = some p') :
    (ProxyOptionalParam.fields method.codec params.option).visitMap
      ((Proxy.fields method.codec params.option).serialize (m, entry, p)) =
        some (m, some (entry, p')) := by
  have hbody := WithMeta.deserialize_serialize (m := entry) hnames h
  have hne : (WithMeta.codec params.option).serialize (entry, p) ≠ .null := by
    intro hnull
    cases hnull
  exact Fields.and_keeps (g := .nullable "params" (WithMeta.codec params.option))
    (b := some (entry, p)) (by simp [Fields.required, Fields.option])
    (Fields.required_keeps "method" (method.keeps m)) (Fields.option_keeps_some hne hbody)

/-- What is read of a request that was written. -/
theorem RequestOptionalParam.deserialize_serialize (method : Method M) (params : Flat P)
    (r : RequestOptionalParam M P)
    (hnames : ∀ p, r.params = some p → ∀ member ∈ params.serialize p, member.1 ≠ "_meta") :
    (codec method params).deserialize ((codec method params).serialize r) =
      some { r with params := params.deserialize ((r.params.map params.serialize).getD []) } := by
  have hoption : ∀ member ∈ params.option.serialize r.params, member.1 ≠ "_meta" := by
    intro member hmem
    cases hparams : r.params with
    | none => simp [Flat.option, hparams] at hmem
    | some p => exact hnames p hparams member (by simpa [Flat.option, hparams] using hmem)
  have hkeeps := ProxyOptionalParam.keeps method params r.method r.extensions.metaEntry hoption rfl
  simp only [codec, Codec.serialize_struct, Codec.deserialize_struct, hkeeps]
  rfl

/-- A request with optional params is read as it was written exactly when it has params that are
read again, or has none and its params are not read from an empty object. -/
theorem optional_params_kept_iff (method : Method M) (params : Flat P)
    (r : RequestOptionalParam M P)
    (hnames : ∀ p, r.params = some p → ∀ member ∈ params.serialize p, member.1 ≠ "_meta") :
    (RequestOptionalParam.codec method params).deserialize
        ((RequestOptionalParam.codec method params).serialize r) = some r ↔
      match r.params with
      | some p => params.deserialize (params.serialize p) = some p
      | none => params.deserialize [] = none := by
  rw [RequestOptionalParam.deserialize_serialize method params r hnames]
  obtain ⟨m, p, e⟩ := r
  cases p <;> simp

/-- The request for the second page. -/
def secondPage : RequestOptionalParam Unit PaginatedRequestParam :=
  ⟨(), some ⟨some "2"⟩, ⟨some ⟨[("progressToken", .number (.posInt 1))]⟩⟩⟩

theorem optional_params_kept_iff_secondPage :
    (RequestOptionalParam.codec (.const "tools/list") PaginatedRequestParam.fields.flat).deserialize
        ((RequestOptionalParam.codec (.const "tools/list")
          PaginatedRequestParam.fields.flat).serialize secondPage) = some secondPage := by
  refine (optional_params_kept_iff (.const "tools/list") PaginatedRequestParam.fields.flat
    secondPage ?_).mpr rfl
  rintro p ⟨⟩ member hmem
  rw [List.mem_singleton.mp hmem]
  decide

/-- The request for the first page, which has no cursor. -/
def firstPage : RequestOptionalParam Unit PaginatedRequestParam := ⟨(), none, ⟨none⟩⟩

/-- A list request without params comes back with params. -/
theorem no_params_become_params :
    (RequestOptionalParam.codec (.const "tools/list") PaginatedRequestParam.fields.flat).deserialize
        ((RequestOptionalParam.codec (.const "tools/list")
          PaginatedRequestParam.fields.flat).serialize firstPage) =
      some { firstPage with params := some ⟨none⟩ } ∧
      { firstPage with params := some ⟨none⟩ } ≠ firstPage := by
  refine ⟨rfl, fun h => ?_⟩
  cases congrArg RequestOptionalParam.params h

/-- Params given as `j`, to a request that needs them and to one that may do without. -/
def withParams (method : Method M) (m : M) (j : JsonObject) : Value :=
  .object [("method", method.codec.serialize m), ("params", .object j)]

/-- The optional params of a request are checked as the params of a request that needs them. -/
structure CheckedAlike (method : Method M) (params : Flat P) (m : M) (j : JsonObject) : Prop where
  accepted : (∃ r', (RequestOptionalParam.codec method params).deserialize (withParams method m j) =
    some r') ↔ ∃ r, (Request.codec method params).deserialize (withParams method m j) = some r
  same : ∀ r r', (Request.codec method params).deserialize (withParams method m j) = some r →
    (RequestOptionalParam.codec method params).deserialize (withParams method m j) = some r' →
    r'.params = some r.params

theorem Proxy.visitMap_withParams (method : Method M) (rest : Flat P) (m : M) (j : JsonObject) :
    (Proxy.fields method.codec rest).visitMap
        [("method", method.codec.serialize m), ("params", .object j)] =
      ((WithMeta.codec rest).deserialize (.object j)).map (m, ·) := by
  simp [Proxy.fields, Fields.and, Fields.required, member, method.keeps]

theorem ProxyOptionalParam.visitMap_withParams (method : Method M) (rest : Flat P) (m : M)
    (j : JsonObject) :
    (ProxyOptionalParam.fields method.codec rest).visitMap
        [("method", method.codec.serialize m), ("params", .object j)] =
      ((WithMeta.codec rest).deserialize (.object j)).map fun body => (m, some body) := by
  have hne : Value.object j ≠ .null := by
    intro hnull
    cases hnull
  simp [ProxyOptionalParam.fields, Fields.and, Fields.required, Fields.option, member, method.keeps,
    Codec.deserializeOption_of_ne hne, Function.comp_def]

theorem Request.deserialize_withParams (method : Method M) (params : Flat P) (m : M)
    (j : JsonObject) :
    (codec method params).deserialize (withParams method m j) =
      (WithMeta.readMeta j).bind fun entry =>
        (params.deserialize (without ["_meta"] j)).map fun p => ⟨m, p, ⟨entry⟩⟩ := by
  simp only [codec, Codec.imap, withParams, Codec.deserialize_struct, Proxy.visitMap_withParams,
    WithMeta.deserialize_object]
  cases WithMeta.readMeta j <;> cases params.deserialize (without ["_meta"] j) <;> rfl

theorem RequestOptionalParam.deserialize_withParams (method : Method M) (params : Flat P) (m : M)
    (j : JsonObject) :
    (codec method params).deserialize (withParams method m j) =
      (WithMeta.readMeta j).map fun entry =>
        ⟨m, params.deserialize (without ["_meta"] j), ⟨entry⟩⟩ := by
  simp only [codec, withParams, Codec.deserialize_struct, ProxyOptionalParam.visitMap_withParams,
    WithMeta.deserialize_object]
  cases WithMeta.readMeta j <;> rfl

/-- The optional params are checked exactly when there is nothing to object to them, or when it
is the metadata that is wrong. -/
theorem optional_params_checked_iff (method : Method M) (params : Flat P) (m : M)
    (j : JsonObject) :
    CheckedAlike method params m j ↔
      (∃ p, params.deserialize (without ["_meta"] j) = some p) ∨ WithMeta.readMeta j = none := by
  have hrequest := Request.deserialize_withParams method params m j
  have hoptional := RequestOptionalParam.deserialize_withParams method params m j
  constructor
  · intro h
    cases hmeta : WithMeta.readMeta j with
    | none => exact .inr rfl
    | some entry =>
      rw [hmeta, Option.map_some] at hoptional
      obtain ⟨r, hr⟩ := h.accepted.mp ⟨_, hoptional⟩
      rw [hrequest, hmeta, Option.bind_some] at hr
      obtain ⟨p, hp, -⟩ := Option.map_eq_some_iff.mp hr
      exact .inl ⟨p, hp⟩
  · rintro (⟨p, hp⟩ | hmeta)
    · rw [hp] at hrequest hoptional
      cases hmeta : WithMeta.readMeta j with
      | none =>
        rw [hmeta] at hrequest hoptional
        exact ⟨by simp [hrequest, hoptional], fun r r' hr => by simp [hrequest] at hr⟩
      | some entry =>
        rw [hmeta] at hrequest hoptional
        refine ⟨by simp [hrequest, hoptional], fun r r' hr hr' => ?_⟩
        obtain rfl := Option.some.inj (hrequest.symm.trans hr)
        obtain rfl := Option.some.inj (hoptional.symm.trans hr')
        rfl
    · rw [hmeta] at hrequest hoptional
      exact ⟨by simp [hrequest, hoptional], fun r r' hr => by simp [hrequest] at hr⟩

/-- A cursor that is a number is an error of a request that needs its params, and no params of
one that does not. -/
theorem rejected_cursor_dropped :
    (Request.codec (.const "tools/list") PaginatedRequestParam.fields.flat).deserialize
        (withParams (.const "tools/list") () [("cursor", .number (.posInt 2))]) = none ∧
      (RequestOptionalParam.codec (.const "tools/list")
        PaginatedRequestParam.fields.flat).deserialize
        (withParams (.const "tools/list") () [("cursor", .number (.posInt 2))]) =
          some ⟨(), none, ⟨none⟩⟩ ∧
      ¬ CheckedAlike (.const "tools/list") PaginatedRequestParam.fields.flat ()
        [("cursor", .number (.posInt 2))] := by
  have hrequest : (Request.codec (.const "tools/list")
      PaginatedRequestParam.fields.flat).deserialize
      (withParams (.const "tools/list") () [("cursor", .number (.posInt 2))]) = none := rfl
  refine ⟨hrequest, rfl, fun h => ?_⟩
  obtain ⟨r, hr⟩ := h.accepted.mp ⟨_, rfl⟩
  rw [hrequest] at hr
  cases hr

/-! ## Messages without params -/

/-- The metadata `m` is that of the params of the message, if it has params. -/
def MetaOfParams (o : JsonObject) (m : Option Meta) : Prop :=
  ∀ members, JsonObject.get "params" o = some (.object members) →
    Meta.IsRead (JsonObject.get "_meta" members) m

/-- The message has no metadata in its params. -/
def WithoutMeta (o : JsonObject) : Prop :=
  ∀ members v, JsonObject.get "params" o = some (.object members) →
    JsonObject.get "_meta" members = some v → v = .null

theorem metaOfParams_none_iff {o : JsonObject} : MetaOfParams o none ↔ WithoutMeta o := by
  refine forall_congr' fun members => ?_
  constructor
  · intro h v hparams hv
    have hread := h hparams
    rw [hv] at hread
    cases v with
    | null => rfl
    | object => cases hread
    | bool | number | string | array => exact hread.elim
  · intro h hparams
    cases hv : JsonObject.get "_meta" members with
    | none => rfl
    | some v =>
      obtain rfl := h v hparams hv
      rfl

theorem ProxyNoParam.keeps (method : Method M) (m : M) :
    (ProxyNoParam.fields method.codec).visitMap
      ((ProxyNoParam.fields method.codec).serialize m) = some m :=
  Fields.required_keeps "method" (method.keeps m)

/-- A message without params keeps its metadata exactly when it has none, and it has the
metadata of the object that it is read from exactly when there is none. -/
theorem no_param_metadata_iff (method : Method M) :
    (∀ r : RequestNoParam M, (RequestNoParam.codec method).deserialize
        ((RequestNoParam.codec method).serialize r) = some r ↔ r.extensions.metaEntry = none) ∧
    (∀ o r, (RequestNoParam.codec method).deserialize (.object o) = some r →
      (MetaOfParams o r.extensions.metaEntry ↔ WithoutMeta o)) ∧
    (∀ n : NotificationNoParam M, (NotificationNoParam.codec method).deserialize
        ((NotificationNoParam.codec method).serialize n) = some n ↔
      n.extensions.metaEntry = none) ∧
    (∀ o n, (NotificationNoParam.codec method).deserialize (.object o) = some n →
      (MetaOfParams o n.extensions.metaEntry ↔ WithoutMeta o)) := by
  refine ⟨fun r => ?_, fun o r h => ?_, fun n => ?_, fun o n h => ?_⟩
  · obtain ⟨m, ⟨entry⟩⟩ := r
    simp [RequestNoParam.codec, Codec.imap, ProxyNoParam.keeps, eq_comm]
  · obtain ⟨m, -, rfl⟩ := Option.map_eq_some_iff.mp h
    exact metaOfParams_none_iff
  · obtain ⟨m, ⟨entry⟩⟩ := n
    simp [NotificationNoParam.codec, Codec.imap, ProxyNoParam.keeps, eq_comm]
  · obtain ⟨m, -, rfl⟩ := Option.map_eq_some_iff.mp h
    exact metaOfParams_none_iff

/-- A ping with a progress token, as another peer writes it. -/
def pingWithToken : JsonObject :=
  [("method", .string "ping"),
   ("params", .object [("_meta", .object [("progressToken", .number (.posInt 1))])])]

/-- A notification that is read keeps having no metadata. A ping that has some is read as one
without. -/
theorem no_param_metadata_iff_initialized :
    (∃ n : NotificationNoParam Unit,
      (NotificationNoParam.codec (.const "notifications/initialized")).deserialize
          (.object [("method", .string "notifications/initialized")]) = some n ∧
        (MetaOfParams [("method", .string "notifications/initialized")] n.extensions.metaEntry ↔
          WithoutMeta [("method", .string "notifications/initialized")])) ∧
    ∃ r : RequestNoParam Unit,
      (RequestNoParam.codec (.const "ping")).deserialize (.object pingWithToken) = some r ∧
        ¬ WithoutMeta pingWithToken ∧ ¬ MetaOfParams pingWithToken r.extensions.metaEntry := by
  constructor
  · exact ⟨⟨(), ⟨none⟩⟩, rfl,
      (no_param_metadata_iff (.const "notifications/initialized")).2.2.2 _ ⟨(), ⟨none⟩⟩ rfl⟩
  · have hmeta : ¬ WithoutMeta pingWithToken := by
      intro h
      cases h _ _ rfl rfl
    exact ⟨⟨(), ⟨none⟩⟩, rfl, hmeta, fun h =>
      hmeta (((no_param_metadata_iff (.const "ping")).2.1 _ ⟨(), ⟨none⟩⟩ rfl).mp h)⟩

/-- The progress token of a ping is not written, and not read where another peer wrote it. -/
theorem ping_metadata_lost :
    (RequestNoParam.codec (.const "ping")).deserialize
        ((RequestNoParam.codec (.const "ping")).serialize
          ⟨(), ⟨some ⟨[("progressToken", .number (.posInt 1))]⟩⟩⟩) = some ⟨(), ⟨none⟩⟩ ∧
      (RequestNoParam.codec (.const "ping")).deserialize
        (.object [("method", .string "ping"), ("params", .object
          [("_meta", .object [("progressToken", .number (.posInt 1))])])]) =
        some ⟨(), ⟨none⟩⟩ ∧
      ¬ MetaOfParams [("method", .string "ping"), ("params", .object
          [("_meta", .object [("progressToken", .number (.posInt 1))])])] none := by
  refine ⟨rfl, rfl, fun h => ?_⟩
  cases h _ rfl

end SerdeImpl

end Rmcp
