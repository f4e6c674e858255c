import Rmcp.Model.Content
import Rmcp.Support.SameJson

/-!
# Prompt content

MCP has one union of content blocks. The SDK has it twice: `Content`, for the results of tools
and for sampling, and `PromptMessageContent`, which has no audio, no annotations of a text, and
an embedded resource as a field where `Content` has it flattened.

Result: `promptContent_agrees_iff`, which values the two write alike, and which blocks they
read alike.
-/

namespace Rmcp

open Serde

inductive PromptMessageContent (A : AnnotationLeaves)
  | text (text : String)
  | image (image : ImageContent A)
  | resource (resource : EmbeddedResource A)

namespace PromptMessageContent

variable (A : AnnotationLeaves)

def textFields : Fields String := .required "text" .string

def resourceFields : Fields (EmbeddedResource A) := .required "resource" (EmbeddedResource.codec A)

def serialize : PromptMessageContent A → JsonObject
  | .text s => ("type", .string "text") :: textFields.serialize s
  | .image c => ("type", .string "image") :: (ImageContent.flat A).serialize c
  | .resource c => ("type", .string "resource") :: (resourceFields A).serialize c

def variants : List (String × (Value → Option (PromptMessageContent A))) :=
  [("text", (Codec.struct textFields).alternative .text),
   ("image", (Codec.flat (ImageContent.flat A)).alternative .image),
   ("resource", (Codec.struct (resourceFields A)).alternative .resource)]

def codec : Codec (PromptMessageContent A) :=
  ⟨fun c => .object (serialize A c), internallyTagged "type" (variants A)⟩

variable {A}

/-- The corresponding content. -/
def toContent : PromptMessageContent A → Content A
  | .text s => ⟨.text ⟨s⟩, none⟩
  | .image c => ⟨.image c.raw, c.annotations⟩
  | .resource c => ⟨.resource c.raw, c.annotations⟩

def isResource : PromptMessageContent A → Bool
  | .resource _ => true
  | .text _ | .image _ => false

end PromptMessageContent

/-! ## Blocks -/

inductive BlockKind
  | text
  | image
  | resource
deriving DecidableEq

def BlockKind.tag : BlockKind → String
  | .text => "text"
  | .image => "image"
  | .resource => "resource"

/-- A JSON object whose `type` is one of the three that both have. -/
structure Block where
  kind : BlockKind
  members : JsonObject
  tagged : member "type" members = some (some (.string kind.tag))

namespace Block

variable (b : Block) {A : AnnotationLeaves}

/-- The resource stands in the block itself, with the annotations beside it. -/
def HoldsFlat (e : EmbeddedResource A) : Prop :=
  RawEmbeddedResource.fields.visitMap b.members = some e.raw ∧
    (annotationsField A).visitMap b.members = some e.annotations

/-- The resource stands in the member `resource` of the block's own member `resource`, with the
annotations beside it there. -/
def HoldsNested (e : EmbeddedResource A) : Prop :=
  ∃ o, member "resource" b.members = some (some (.object o)) ∧
    RawEmbeddedResource.fields.visitMap o = some e.raw ∧
    (annotationsField A).visitMap o = some e.annotations

/-- The annotations are missing, or null. -/
def Unannotated : Prop :=
  member "annotations" b.members = some none ∨ member "annotations" b.members = some (some .null)

variable (A) in
/-- No text is annotated, and no resource stands in one of its two places alone. -/
def Agrees : Prop :=
  match b.kind with
  | .text => (∃ s, member "text" b.members = some (some (.string s))) → b.Unannotated
  | .image => True
  | .resource => ∀ e : EmbeddedResource A, b.HoldsFlat e ↔ b.HoldsNested e

/-- Beside the annotations, a content is read as the variant of its block. -/
theorem content_deserialize {T : Type} {f : Fields T} {wrap : T → RawContent A}
    (hread : (RawContent.variants A).find? (·.1 = b.kind.tag) =
      some (b.kind.tag, (Codec.struct f).alternative wrap))
    (hnames : ∀ name ∈ f.names, name ≠ "type" ∧ name ≠ "annotations") :
    (Content.codec A).deserialize (.object b.members) =
      (f.visitMap b.members).bind fun t =>
        ((annotationsField A).visitMap b.members).map fun annotations => ⟨wrap t, annotations⟩ := by
  have htag : member "type" (without ["annotations"] b.members) =
      some (some (.string b.kind.tag)) := by
    rw [member_without (by simp), b.tagged]
  have hraw : (RawContent.flat A).deserialize (without ["annotations"] b.members) =
      (f.visitMap b.members).map wrap := by
    simp only [RawContent.flat]
    rw [internallyTagged_of_tag hread htag, Codec.alternative, Codec.deserialize_struct,
      f.visitMap_without _ fun n hn => by simpa using (hnames n hn).1,
      f.visitMap_without _ fun n hn => by simpa using (hnames n hn).2]
  simp only [Content.codec, Codec.flat, Annotated.deserialize_eq, hraw, Option.bind_map,
    Function.comp_def]

theorem prompt_deserialize {read : Value → Option (PromptMessageContent A)}
    (hread : (PromptMessageContent.variants A).find? (·.1 = b.kind.tag) =
      some (b.kind.tag, read)) :
    (PromptMessageContent.codec A).deserialize (.object b.members) =
      read (.object (without ["type"] b.members)) :=
  internallyTagged_of_tag hread b.tagged

theorem visitMap_text {s : String} : PromptMessageContent.textFields.visitMap b.members = some s ↔
    member "text" b.members = some (some (.string s)) := by
  simp only [PromptMessageContent.textFields, Fields.required, Option.bind_eq_some_iff]
  constructor
  · rintro ⟨_, hmember, v, rfl, hread⟩
    rw [hmember]
    cases v with
    | string _ =>
      cases hread
      rfl
    | _ => cases hread
  · intro hmember
    exact ⟨_, hmember, _, rfl, rfl⟩

theorem visitMap_annotations :
    (annotationsField A).visitMap b.members = some none ↔ b.Unannotated := by
  simp only [Fields.option, Unannotated]
  rcases member "annotations" b.members with _ | _ | v
  · simp
  · simp
  · by_cases hnull : v = .null
    · simp [hnull, Codec.deserializeOption]
    · simp [Codec.deserializeOption_of_ne hnull, hnull]

/-- A prompt content passes over the annotations of a text. -/
theorem agree_text_iff (hkind : b.kind = .text) :
    ((PromptMessageContent.codec A).deserialize (.object b.members)).map
        PromptMessageContent.toContent = (Content.codec A).deserialize (.object b.members) ↔
      ((∃ s, member "text" b.members = some (some (.string s))) → b.Unannotated) := by
  have hread : (RawContent.variants A).find? (·.1 = b.kind.tag) =
      some (b.kind.tag, (Codec.struct RawTextContent.fields).alternative .text) := by
    rw [hkind]
    rfl
  have hprompt : (PromptMessageContent.codec A).deserialize (.object b.members) =
      (PromptMessageContent.textFields.visitMap b.members).map .text := by
    rw [b.prompt_deserialize (by rw [hkind]; rfl), Codec.alternative, Codec.deserialize_struct,
      Fields.visitMap_without _ _ (by simp [PromptMessageContent.textFields, Fields.required])]
  have htext : RawTextContent.fields.visitMap b.members =
      (PromptMessageContent.textFields.visitMap b.members).map RawTextContent.mk := rfl
  rw [b.content_deserialize hread (by simp [RawTextContent.fields, Fields.imap, Fields.required]),
    hprompt, htext]
  simp only [← visitMap_text]
  cases ht : PromptMessageContent.textFields.visitMap b.members with
  | none => simp
  | some s =>
    rw [← b.visitMap_annotations (A := A)]
    simp only [Option.map_some, Option.bind_some, PromptMessageContent.toContent]
    rw [eq_comm, Option.map_eq_some_iff]
    simp

/-- The annotations of an image stand where those of the content are. -/
theorem agree_image (hkind : b.kind = .image) :
    ((PromptMessageContent.codec A).deserialize (.object b.members)).map
        PromptMessageContent.toContent = (Content.codec A).deserialize (.object b.members) := by
  have hread : (RawContent.variants A).find? (·.1 = b.kind.tag) =
      some (b.kind.tag, (Codec.struct RawImageContent.fields).alternative .image) := by
    rw [hkind]
    rfl
  have hprompt : (PromptMessageContent.codec A).deserialize (.object b.members) =
      ((RawImageContent.fields.visitMap b.members).bind fun raw =>
        ((annotationsField A).visitMap b.members).map fun annotations =>
          ⟨raw, annotations⟩).map .image := by
    rw [b.prompt_deserialize (by rw [hkind]; rfl), Codec.alternative]
    simp only [Codec.flat, ImageContent.flat]
    rw [Annotated.deserialize_fields (by decide), Fields.visitMap_without _ _ (by decide),
      Fields.visitMap_without _ _ (by simp [Fields.option])]
  rw [b.content_deserialize hread (by decide), hprompt]
  simp [Option.map_bind, Function.comp_def, PromptMessageContent.toContent]

theorem holdsFlat_iff {e : EmbeddedResource A} : b.HoldsFlat e ↔
    ((RawEmbeddedResource.fields.visitMap b.members).bind fun raw =>
      ((annotationsField A).visitMap b.members).map fun annotations => ⟨raw, annotations⟩) =
        some e := by
  simp only [HoldsFlat, Option.bind_eq_some_iff, Option.map_eq_some_iff]
  constructor
  · rintro ⟨hraw, hann⟩
    exact ⟨e.raw, hraw, e.annotations, hann, rfl⟩
  · rintro ⟨raw, hraw, annotations, hann, rfl⟩
    exact ⟨hraw, hann⟩

theorem holdsNested_iff {e : EmbeddedResource A} :
    b.HoldsNested e ↔ (PromptMessageContent.resourceFields A).visitMap b.members = some e := by
  simp only [HoldsNested, PromptMessageContent.resourceFields, Fields.required,
    Option.bind_eq_some_iff, EmbeddedResource.codec, Codec.flat]
  constructor
  · rintro ⟨o, hmember, hraw, hann⟩
    refine ⟨_, hmember, _, rfl, ?_⟩
    simp only [Annotated.deserialize_fields (f := RawEmbeddedResource.fields) (by decide), hraw,
      hann, Option.bind_some, Option.map_some]
  · rintro ⟨_, hmember, v, rfl, hread⟩
    cases v with
    | object o =>
      simp only [Annotated.deserialize_fields (f := RawEmbeddedResource.fields) (by decide),
        Option.bind_eq_some_iff, Option.map_eq_some_iff] at hread
      obtain ⟨raw, hraw, annotations, hann, rfl⟩ := hread
      exact ⟨o, hmember, hraw, hann⟩
    | _ => cases hread

/-- The two look for the resource in different places. -/
theorem agree_resource_iff (hkind : b.kind = .resource) :
    ((PromptMessageContent.codec A).deserialize (.object b.members)).map
        PromptMessageContent.toContent = (Content.codec A).deserialize (.object b.members) ↔
      ∀ e : EmbeddedResource A, b.HoldsFlat e ↔ b.HoldsNested e := by
  have hread : (RawContent.variants A).find? (·.1 = b.kind.tag) =
      some (b.kind.tag, (Codec.struct RawEmbeddedResource.fields).alternative .resource) := by
    rw [hkind]
    rfl
  have hprompt : (PromptMessageContent.codec A).deserialize (.object b.members) =
      ((PromptMessageContent.resourceFields A).visitMap b.members).map .resource := by
    rw [b.prompt_deserialize (by rw [hkind]; rfl), Codec.alternative, Codec.deserialize_struct,
      Fields.visitMap_without _ _ (by simp [PromptMessageContent.resourceFields, Fields.required])]
  -- what the content reads, as an embedded resource
  have hcontent : (Content.codec A).deserialize (.object b.members) =
      (((RawEmbeddedResource.fields.visitMap b.members).bind fun raw =>
        ((annotationsField A).visitMap b.members).map fun annotations =>
          (⟨raw, annotations⟩ : EmbeddedResource A)).map .resource).map
            PromptMessageContent.toContent := by
    rw [b.content_deserialize hread (by decide)]
    simp [Option.map_bind, Function.comp_def, PromptMessageContent.toContent]
  have hinj : Function.Injective
      (PromptMessageContent.toContent ∘ PromptMessageContent.resource (A := A)) := by
    rintro ⟨_, _⟩ ⟨_, _⟩ h
    cases h
    rfl
  rw [hcontent, hprompt, Option.map_map, Option.map_map, (Option.map_injective hinj).eq_iff,
    Option.ext_iff]
  refine forall_congr' fun e => ?_
  rw [holdsFlat_iff, holdsNested_iff]
  exact iff_comm

end Block

/-! ## Agreement -/

namespace PromptMessageContent

variable {A : AnnotationLeaves}

theorem serialize_eq {c : PromptMessageContent A} (h : c.isResource = false) :
    (codec A).serialize c = (Content.codec A).serialize c.toContent := by
  cases c with
  | text s => rfl
  | image c => rfl
  | resource c => cases h

/-- A nested resource has no `uri` where the flat one has it. -/
theorem not_sameJson {c : PromptMessageContent A} (h : c.isResource = true) :
    ¬ SameJson ((codec A).serialize c) ((Content.codec A).serialize c.toContent) := by
  cases c with
  | text s => cases h
  | image c => cases h
  | resource c =>
    intro hsame
    obtain ⟨o, v, ho, hv⟩ : ∃ o v, c.raw.resource.serialize = .object o ∧ ("uri", v) ∈ o := by
      cases c.raw.resource <;> exact ⟨_, _, rfl, List.mem_cons_self⟩
    have hmem : ("resource", .object o) ∈
        (Annotated.flat A (RawContent.flat A)).serialize (toContent (.resource c)) := by
      rw [← ho]
      exact List.mem_cons_of_mem _ List.mem_cons_self
    obtain ⟨w, hw, hsame⟩ := SameJson.exists_member hsame hmem
    simp only [serialize, resourceFields, Fields.required, List.mem_cons, List.not_mem_nil,
      or_false, Prod.mk.injEq] at hw
    rcases hw with ⟨hname, _⟩ | ⟨_, rfl⟩
    · simp at hname
    · obtain ⟨u, hu, _⟩ := SameJson.exists_member hsame hv
      have hnames : ∀ m ∈ (Annotated.flat A RawEmbeddedResource.fields.flat).serialize c,
          m.1 ≠ "uri" :=
        Annotated.key_ne (by decide) (RawEmbeddedResource.fields.key_ne (by decide))
      exact hnames _ hu rfl

end PromptMessageContent

/-- The two enums write the same JSON, also up to the order of members, except for a resource.
They read the same from a block exactly where `Agrees` says so. -/
theorem promptContent_agrees_iff (A : AnnotationLeaves) :
    (∀ c : PromptMessageContent A,
      ((PromptMessageContent.codec A).serialize c = (Content.codec A).serialize c.toContent ↔
        c.isResource = false) ∧
      (SameJson ((PromptMessageContent.codec A).serialize c)
        ((Content.codec A).serialize c.toContent) ↔ c.isResource = false)) ∧
    ∀ b : Block,
      ((PromptMessageContent.codec A).deserialize (.object b.members)).map
          PromptMessageContent.toContent = (Content.codec A).deserialize (.object b.members) ↔
        b.Agrees A := by
  refine ⟨fun c => ?_, fun b => ?_⟩
  · cases hc : c.isResource with
    | false =>
      rw [PromptMessageContent.serialize_eq hc]
      exact ⟨iff_of_true rfl rfl, iff_of_true (.refl _) rfl⟩
    | true =>
      have hsame := PromptMessageContent.not_sameJson hc
      refine ⟨iff_of_false (fun heq => hsame ?_) (by simp), iff_of_false hsame (by simp)⟩
      rw [heq]
      exact .refl _
  · match hkind : b.kind with
    | .text => simpa only [Block.Agrees, hkind] using b.agree_text_iff hkind
    | .image => simpa only [Block.Agrees, hkind, iff_true] using b.agree_image hkind
    | .resource => simpa only [Block.Agrees, hkind] using b.agree_resource_iff hkind

def readme : ResourceContents := .textResourceContents "file:///readme.md" none "hello"

/-- The prompt content nests the resource once more, and rejects the block that the content
writes. -/
theorem resource_forms_differ :
    (PromptMessageContent.codec plainAnnotationLeaves).serialize (.resource ⟨⟨readme⟩, none⟩) =
      .object [("type", .string "resource"),
        ("resource", .object [("resource", readme.serialize)])] ∧
    (Content.codec plainAnnotationLeaves).serialize ⟨.resource ⟨readme⟩, none⟩ =
      .object [("type", .string "resource"), ("resource", readme.serialize)] ∧
    ¬ SameJson
      ((PromptMessageContent.codec plainAnnotationLeaves).serialize (.resource ⟨⟨readme⟩, none⟩))
      ((Content.codec plainAnnotationLeaves).serialize ⟨.resource ⟨readme⟩, none⟩) ∧
    (Content.codec plainAnnotationLeaves).deserialize
        (.object [("type", .string "resource"), ("resource", readme.serialize)]) =
      some ⟨.resource ⟨readme⟩, none⟩ ∧
    (PromptMessageContent.codec plainAnnotationLeaves).deserialize
        (.object [("type", .string "resource"), ("resource", readme.serialize)]) = none :=
  ⟨rfl, rfl, PromptMessageContent.not_sameJson rfl, rfl, rfl⟩

end Rmcp
