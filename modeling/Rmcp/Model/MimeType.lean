import Rmcp.Model.Content
import Rmcp.Support.SameJson

/-!
# MIME types of resources

MCP names the MIME type of resource contents `mimeType`. `ResourceContents` reads and writes
`mime_type`, and passes over members that it does not know.

Result: `resource_relayed_iff`, which resources are relayed with all their members.
-/

namespace Rmcp

open Serde

/-- The content of a resource is a text or base64. -/
inductive BodyKind
  | text
  | blob
deriving DecidableEq

def BodyKind.member : BodyKind → String
  | .text => "text"
  | .blob => "blob"

/-- An object with the members that MCP has for resource contents, in any order. -/
structure ResourceObject where
  uri : String
  mimeType : Option String
  kind : BodyKind
  body : String
  members : JsonObject
  perm : List.Perm
    ((("uri", .string uri) :: (kind.member, .string body) ::
      (mimeType.map fun m => ("mimeType", .string m)).toList)) members

/-- An object with the members that MCP has for an embedded resource, in any order. -/
structure EmbeddedObject where
  resource : ResourceObject
  annotations : Option Value
  members : JsonObject
  perm : List.Perm
    (("resource", .object resource.members) :: (annotations.map ("annotations", ·)).toList)
    members

namespace ResourceObject

variable (r : ResourceObject)

/-- What is left of the object once it is read. -/
def contents : ResourceContents :=
  match r.kind with
  | .text => .textResourceContents r.uri none r.body
  | .blob => .blobResourceContents r.uri none r.body

theorem member_members (name : String) : member name r.members = member name
    (("uri", .string r.uri) :: (r.kind.member, .string r.body) ::
      (r.mimeType.map fun m => ("mimeType", .string m)).toList) :=
  (member_perm r.perm).symm

theorem visitMap_fields :
    (ResourceContents.fields r.kind.member).visitMap r.members = some (r.uri, none, r.body) := by
  have huri : member "uri" r.members = some (some (.string r.uri)) := by
    rw [member_members]
    cases r.kind <;> cases r.mimeType <;> simp [member, BodyKind.member]
  -- `mimeType` is another name
  have hmime : member "mime_type" r.members = some none := by
    rw [member_members]
    cases r.kind <;> cases r.mimeType <;> simp [member, BodyKind.member]
  have hbody : member r.kind.member r.members = some (some (.string r.body)) := by
    rw [member_members]
    cases r.kind <;> cases r.mimeType <;> simp [member, BodyKind.member]
  simp [ResourceContents.fields, Fields.and, Fields.required, Fields.option, huri, hmime, hbody,
    Codec.string]

/-- `mimeType` is a member that neither of the variants knows. -/
theorem deserialize_members :
    ResourceContents.codec.deserialize (.object r.members) = some r.contents := by
  have hread := r.visitMap_fields
  cases hkind : r.kind with
  | text =>
    rw [hkind] at hread
    refine (untagged_take hread).trans ?_
    simp [contents, hkind]
  | blob =>
    have htext : "text" ∉ keys r.members := by
      intro hmem
      have hkeys := (r.perm.map (·.1)).mem_iff.mpr hmem
      cases hmime : r.mimeType <;> simp [hkind, hmime, BodyKind.member] at hkeys
    rw [hkind] at hread
    refine (untagged_skip (ResourceContents.needs_body _ htext)).trans ?_
    refine (untagged_take hread).trans ?_
    simp [contents, hkind]

theorem serialize_contents : ResourceContents.codec.serialize r.contents =
    .object [("uri", .string r.uri), (r.kind.member, .string r.body)] := by
  cases hkind : r.kind <;> simp [contents, hkind, ResourceContents.codec,
    ResourceContents.serialize, ResourceContents.fields, Fields.and, Fields.required,
    Fields.option, Codec.string, BodyKind.member]

theorem relays_iff : ResourceContents.codec.Relays (.object r.members) ↔ r.mimeType = none := by
  constructor
  · rintro ⟨c, hread, hsame⟩
    rw [deserialize_members] at hread
    cases hread
    rw [serialize_contents] at hsame
    cases hmime : r.mimeType with
    | none => rfl
    | some m =>
      have hmem : ("mimeType", .string m) ∈ r.members := by
        rw [← r.perm.mem_iff, hmime]
        simp
      -- the member is not written again
      obtain ⟨v, hv, _⟩ := hsame.exists_member hmem
      cases hkind : r.kind <;> simp [hkind, BodyKind.member] at hv
  · intro hmime
    refine ⟨r.contents, r.deserialize_members, ?_⟩
    rw [serialize_contents]
    have hperm := r.perm
    rw [hmime] at hperm
    exact .of_perm hperm

end ResourceObject

namespace EmbeddedObject

variable (e : EmbeddedObject) {A : AnnotationLeaves}

theorem member_resource :
    member "resource" e.members = some (some (.object e.resource.members)) := by
  rw [← member_perm e.perm]
  cases e.annotations <;> simp [member]

theorem member_annotations : member "annotations" e.members = some e.annotations := by
  rw [← member_perm e.perm]
  cases e.annotations <;> simp [member]

/-- The resource and the annotations are read each from its own member. -/
theorem deserialize_members : (EmbeddedResource.codec A).deserialize (.object e.members) =
    ((e.annotations.map (Annotations.codec A).deserializeOption).getD (some none)).map
      fun annotations => ⟨⟨e.resource.contents⟩, annotations⟩ := by
  have hresource : RawEmbeddedResource.fields.visitMap e.members =
      some ⟨e.resource.contents⟩ := by
    simp [RawEmbeddedResource.fields, Fields.imap, Fields.required, e.member_resource,
      e.resource.deserialize_members]
  simp only [EmbeddedResource.codec, Codec.flat]
  rw [Annotated.deserialize_fields (by decide), hresource]
  simp only [Option.bind_some, Fields.option, e.member_annotations]

/-- What is relayed has the resource and the annotations as members of their own. -/
theorem relays_parts (h : (EmbeddedResource.codec A).Relays (.object e.members)) :
    ResourceContents.codec.Relays (.object e.resource.members) ∧
      ∀ a, e.annotations = some a → (Annotations.codec A).Relays a := by
  obtain ⟨c, hread, hsame⟩ := h
  rw [deserialize_members] at hread
  obtain ⟨annotations, hann, rfl⟩ := Option.map_eq_some_iff.mp hread
  constructor
  · have hmem : ("resource", .object e.resource.members) ∈ e.members :=
      e.perm.mem_iff.mp List.mem_cons_self
    obtain ⟨v, hv, hsame⟩ := hsame.exists_member hmem
    rcases List.mem_cons.mp hv with heq | hv
    · cases heq
      exact ⟨e.resource.contents, e.resource.deserialize_members, hsame⟩
    · have hname : "resource" ∉ (annotationsField A).names := by simp [Fields.option]
      exact absurd rfl ((annotationsField A).key_ne hname _ hv)
  · intro a ha
    have hmem : ("annotations", a) ∈ e.members := by
      rw [← e.perm.mem_iff, ha]
      simp
    obtain ⟨v, hv, hsame⟩ := hsame.exists_member hmem
    rcases List.mem_cons.mp hv with heq | hv
    · simp at heq
    · rw [ha] at hann
      cases annotations with
      | none => cases hv
      | some annotations =>
        cases List.mem_singleton.mp hv
        exact ⟨annotations, (Codec.deserializeOption_eq_some_some.mp hann).2, hsame⟩

theorem relays_of_parts (hresource : ResourceContents.codec.Relays (.object e.resource.members))
    (hann : ∀ a, e.annotations = some a → (Annotations.codec A).Relays a) :
    (EmbeddedResource.codec A).Relays (.object e.members) := by
  obtain ⟨c, hread, hresource⟩ := hresource
  rw [e.resource.deserialize_members] at hread
  cases hread
  have hperm := e.perm
  cases ha : e.annotations with
  | none =>
    refine ⟨⟨⟨e.resource.contents⟩, none⟩, by simp [deserialize_members, ha], ?_⟩
    rw [ha] at hperm
    exact (hresource.cons (.refl (.object []))).trans_perm hperm
  | some a =>
    obtain ⟨annotations, hread, hsame⟩ := hann a ha
    -- null would be read as no annotations, and is not relayed
    have hnull : a ≠ .null := by
      rintro rfl
      cases hread
    refine ⟨⟨⟨e.resource.contents⟩, some annotations⟩, ?_, ?_⟩
    · simp [deserialize_members, ha, Codec.deserializeOption_of_ne hnull, hread]
    · rw [ha] at hperm
      exact (hresource.cons (hsame.cons (.refl (.object [])))).trans_perm hperm

theorem relays_iff : (EmbeddedResource.codec A).Relays (.object e.members) ↔
    e.resource.mimeType = none ∧
      ∀ a, e.annotations = some a → (Annotations.codec A).Relays a := by
  rw [← e.resource.relays_iff]
  exact ⟨e.relays_parts, fun h => e.relays_of_parts h.1 h.2⟩

end EmbeddedObject

/-- The leaves with these resource contents. -/
def Leaves.withResourceContents (L : Leaves) : Leaves :=
  { L with
    ResourceContents := Rmcp.ResourceContents
    resourceContents := Rmcp.ResourceContents.codec }

theorem ReadResourceResult.relays_iff {L : Leaves} {vs : List Value} :
    (Codec.struct (ReadResourceResult.fields L.withResourceContents)).Relays
        (.object [("contents", .array vs)]) ↔
      ∀ v ∈ vs, ResourceContents.codec.Relays v := by
  rw [← Codec.relays_list]
  constructor
  · rintro ⟨r, hread, hsame⟩
    obtain ⟨contents, hcontents, rfl⟩ := Option.map_eq_some_iff.mp hread
    obtain ⟨v, hv, hsame⟩ := hsame.exists_member List.mem_cons_self
    cases List.mem_singleton.mp hv
    exact ⟨contents, hcontents, hsame⟩
  · rintro ⟨contents, hread, hsame⟩
    refine ⟨⟨contents⟩, ?_, hsame.cons (.refl (.object []))⟩
    exact Option.map_eq_some_iff.mpr ⟨contents, hread, rfl⟩

/-- A resource keeps all its members exactly when it has no MIME type, by itself, embedded or
in the result of a read. -/
theorem resource_relayed_iff (A : AnnotationLeaves) (L : Leaves) :
    (∀ r : ResourceObject,
      ResourceContents.codec.Relays (.object r.members) ↔ r.mimeType = none) ∧
    (∀ e : EmbeddedObject, (EmbeddedResource.codec A).Relays (.object e.members) ↔
      e.resource.mimeType = none ∧
        ∀ a, e.annotations = some a → (Annotations.codec A).Relays a) ∧
    ∀ rs : List ResourceObject,
      (Codec.struct (ReadResourceResult.fields L.withResourceContents)).Relays
          (.object [("contents", .array (rs.map fun r => .object r.members))]) ↔
        ∀ r ∈ rs, r.mimeType = none := by
  refine ⟨fun r => r.relays_iff, fun e => e.relays_iff, fun rs => ?_⟩
  rw [ReadResourceResult.relays_iff, List.forall_mem_map]
  exact forall₂_congr fun r _ => r.relays_iff

/-- A text with its MIME type, as another implementation sends it. -/
def typedText : ResourceObject where
  uri := "file:///readme.md"
  mimeType := some "text/markdown"
  kind := .text
  body := "hello"
  members :=
    [("uri", .string "file:///readme.md"), ("mimeType", .string "text/markdown"),
     ("text", .string "hello")]
  perm := (List.Perm.swap _ _ _).cons _

/-- It is read and written again without it. -/
theorem mimeType_lost :
    (ResourceContents.codec.deserialize (.object typedText.members)).map
        ResourceContents.codec.serialize =
      some (.object [("uri", .string "file:///readme.md"), ("text", .string "hello")]) ∧
    ¬ ResourceContents.codec.Relays (.object typedText.members) := by
  refine ⟨rfl, fun h => ?_⟩
  cases typedText.relays_iff.mp h

end Rmcp
