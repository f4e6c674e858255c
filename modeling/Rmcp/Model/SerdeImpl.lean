import Rmcp.Model.Variants

/-!
# Requests and notifications of any method and params

`serde_impl` for the five generic shapes: any method, a constant or a string, and any params
that can be flattened, a struct or an object. The metadata is not a member of these types; each
shape is written through a proxy that takes it out of the extensions, and read through one that
puts it there.

Results:
1. `Request.deserialize_fields` and its siblings: the messages of the two roles are these shapes,
   with a constant for a method.
-/

namespace Rmcp.SerdeImpl

open Serde

/-- A type of methods; a method is read from what it is written as. -/
structure Method (M : Type) where
  codec : Codec M
  keeps : ∀ m, codec.deserialize (codec.serialize m) = some m

/-- `M = String`. -/
def Method.string : Method String := ⟨.string, Codec.deserialize_string⟩

/-- `const_string!`. -/
def Method.const (method : String) : Method Unit :=
  ⟨.constString method, fun _ => Codec.deserialize_constString method⟩

structure Request (M P : Type) where
  method : M
  params : P
  extensions : Extensions

structure RequestOptionalParam (M P : Type) where
  method : M
  params : Option P
  extensions : Extensions

structure RequestNoParam (M : Type) where
  method : M
  extensions : Extensions

structure Notification (M P : Type) where
  method : M
  params : P
  extensions : Extensions

structure NotificationNoParam (M : Type) where
  method : M
  extensions : Extensions

variable {M P : Type}

/-! ## The proxies -/

def Proxy.fields (method : Codec M) (rest : Flat P) : Fields (M × (Option Meta × P)) :=
  (Fields.required "method" method).and (.required "params" (WithMeta.codec rest))

def ProxyOptionalParam.fields (method : Codec M) (rest : Flat P) :
    Fields (M × Option (Option Meta × P)) :=
  (Fields.required "method" method).and (.nullable "params" (WithMeta.codec rest))

def ProxyNoParam.fields (method : Codec M) : Fields M := .required "method" method

/-! ## The shapes -/

def Request.codec (method : Method M) (params : Flat P) : Codec (Request M P) :=
  (Codec.struct (Proxy.fields method.codec params)).imap
    (fun (method, m, params) => ⟨method, params, ⟨m⟩⟩)
    fun r => (r.method, r.extensions.metaEntry, r.params)

/-- Written through `Proxy`, and read through `ProxyOptionalParam`. -/
def RequestOptionalParam.codec (method : Method M) (params : Flat P) :
    Codec (RequestOptionalParam M P) where
  serialize r :=
    (Codec.struct (Proxy.fields method.codec params.option)).serialize
      (r.method, r.extensions.metaEntry, r.params)
  deserialize v :=
    ((Codec.struct (ProxyOptionalParam.fields method.codec params.option)).deserialize v).map
      fun (method, body) => ⟨method, body.bind (·.2), ⟨body.bind (·.1)⟩⟩

/-- The metadata is taken out of the extensions, and not written. -/
def RequestNoParam.codec (method : Method M) : Codec (RequestNoParam M) :=
  (Codec.struct (ProxyNoParam.fields method.codec)).imap (fun method => ⟨method, ⟨none⟩⟩) (·.method)

def Notification.codec (method : Method M) (params : Flat P) : Codec (Notification M P) :=
  (Codec.struct (Proxy.fields method.codec params)).imap
    (fun (method, m, params) => ⟨method, params, ⟨m⟩⟩)
    fun n => (n.method, n.extensions.metaEntry, n.params)

def NotificationNoParam.codec (method : Method M) : Codec (NotificationNoParam M) :=
  (Codec.struct (ProxyNoParam.fields method.codec)).imap (fun method => ⟨method, ⟨none⟩⟩) (·.method)

/-! ## The messages of the two roles -/

section Roles

variable {p : Fields P} {method : String} {α β : Type}

/-- A struct with a constant in front, as the struct with the constant as a field. -/
theorem visitMap_tagged (f : Fields α) (make : α → β) (parts : β → α) (o : JsonObject) :
    ((f.imap make parts).tagged "method" method).visitMap o =
      (((Fields.required "method" (.constString method)).and f).visitMap o).map
        fun (_, a) => make a := by
  simp only [Fields.tagged, Fields.imap, Fields.and]
  cases (Fields.required "method" (.constString method)).visitMap o <;>
    cases f.visitMap o <;> rfl

theorem Request.deserialize_fields (o : JsonObject) :
    (Rmcp.Request.fields method p).visitMap o =
      ((Request.codec (.const method) p.flat).deserialize (.object o)).map
        fun r => ⟨r.params, r.extensions⟩ := by
  rw [Rmcp.Request.fields, visitMap_tagged]
  simp only [Request.codec, Codec.imap, Codec.deserialize_struct, Option.map_map]
  rfl

theorem Request.serialize_fields (r : Rmcp.Request P) :
    .object ((Rmcp.Request.fields method p).serialize r) =
      (Request.codec (.const method) p.flat).serialize ⟨(), r.params, r.extensions⟩ := rfl

theorem RequestOptionalParam.deserialize_fields (o : JsonObject) :
    (Rmcp.RequestOptionalParam.fields method p).visitMap o =
      ((RequestOptionalParam.codec (.const method) p.flat).deserialize (.object o)).map
        fun r => ⟨r.params, r.extensions⟩ := by
  rw [Rmcp.RequestOptionalParam.fields, visitMap_tagged]
  simp only [RequestOptionalParam.codec, Codec.deserialize_struct, Option.map_map]
  rfl

theorem RequestOptionalParam.serialize_fields (r : Rmcp.RequestOptionalParam P) :
    .object ((Rmcp.RequestOptionalParam.fields method p).serialize r) =
      (RequestOptionalParam.codec (.const method) p.flat).serialize
        ⟨(), r.params, r.extensions⟩ := rfl

theorem Notification.deserialize_fields (o : JsonObject) :
    (Rmcp.Notification.fields method p).visitMap o =
      ((Notification.codec (.const method) p.flat).deserialize (.object o)).map
        fun n => ⟨n.params, n.extensions⟩ := by
  rw [Rmcp.Notification.fields, visitMap_tagged]
  simp only [Notification.codec, Codec.imap, Codec.deserialize_struct, Option.map_map]
  rfl

theorem Notification.serialize_fields (n : Rmcp.Notification P) :
    .object ((Rmcp.Notification.fields method p).serialize n) =
      (Notification.codec (.const method) p.flat).serialize ⟨(), n.params, n.extensions⟩ := rfl

/-- A shape without params has its method alone. -/
theorem visitMap_tagged_nil (make : Unit → β) (parts : β → Unit) (o : JsonObject) :
    ((Fields.nil.imap make parts).tagged "method" method).visitMap o =
      ((ProxyNoParam.fields (.constString method)).visitMap o).map fun _ => make () := by
  rw [visitMap_tagged]
  simp only [Fields.and, Fields.nil, ProxyNoParam.fields]
  cases (Fields.required "method" (.constString method)).visitMap o <;> rfl

theorem RequestNoParam.deserialize_fields (o : JsonObject) :
    (Rmcp.RequestNoParam.fields method).visitMap o =
      ((RequestNoParam.codec (.const method)).deserialize (.object o)).map
        fun r => ⟨r.extensions⟩ := by
  rw [Rmcp.RequestNoParam.fields, visitMap_tagged_nil]
  simp only [RequestNoParam.codec, Codec.imap, Codec.deserialize_struct, Option.map_map]
  rfl

theorem RequestNoParam.serialize_fields (r : Rmcp.RequestNoParam) :
    .object ((Rmcp.RequestNoParam.fields method).serialize r) =
      (RequestNoParam.codec (.const method)).serialize ⟨(), r.extensions⟩ := rfl

theorem NotificationNoParam.deserialize_fields (o : JsonObject) :
    (Rmcp.NotificationNoParam.fields method).visitMap o =
      ((NotificationNoParam.codec (.const method)).deserialize (.object o)).map
        fun n => ⟨n.extensions⟩ := by
  rw [Rmcp.NotificationNoParam.fields, visitMap_tagged_nil]
  simp only [NotificationNoParam.codec, Codec.imap, Codec.deserialize_struct, Option.map_map]
  rfl

theorem NotificationNoParam.serialize_fields (n : Rmcp.NotificationNoParam) :
    .object ((Rmcp.NotificationNoParam.fields method).serialize n) =
      (NotificationNoParam.codec (.const method)).serialize ⟨(), n.extensions⟩ := rfl

end Roles

end Rmcp.SerdeImpl
