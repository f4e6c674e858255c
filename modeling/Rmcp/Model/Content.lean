import Rmcp.Model.Params

/-!
# Content

What tool results, sampling messages and prompts carry: text, images, embedded resources and
audio, each with annotations. `Annotated<T>` flattens its `T`, so that the annotations stand
in the same object as the members of the content, and `RawContent` is tagged by `type` in this
object too. The content of an audio block is annotated a second time.

Result: `content_readsBack_iff`, which contents come back when they are written and read again.
-/

namespace Rmcp

open Serde

/-- What `serde_json` and `chrono` make of an `f32` and of a `DateTime<Utc>`. A float that is
not finite is written as null. -/
structure AnnotationLeaves where
  {F32 DateTime : Type}
  f32 : Codec F32
  isFinite : F32 → Bool
  dateTime : Codec DateTime
  f32_readsBack : ∀ p, isFinite p = true → f32.serialize p ≠ .null ∧ f32.ReadsBackAt p
  f32_null : ∀ p, isFinite p = false → f32.serialize p = .null
  dateTime_readsBack : ∀ t, dateTime.serialize t ≠ .null ∧ dateTime.ReadsBackAt t

variable (A : AnnotationLeaves)

/-! ## Annotations -/

structure Annotations where
  audience : Option (List Role)
  priority : Option A.F32
  timestamp : Option A.DateTime

def Annotations.fields : Fields (Annotations A) :=
  ((Fields.optional "audience" (.list Role.codec)).and
    ((Fields.optional "priority" A.f32).and (.optional "timestamp" A.dateTime))).imap
    (fun (audience, priority, timestamp) => ⟨audience, priority, timestamp⟩)
    fun a => (a.audience, a.priority, a.timestamp)

abbrev Annotations.codec : Codec (Annotations A) := .struct (fields A)

structure Annotated (T : Type) where
  raw : T
  annotations : Option (Annotations A)

/-- The field that the annotations are read from. -/
abbrev annotationsField : Fields (Option (Annotations A)) :=
  .optional "annotations" (Annotations.codec A)

def Annotated.flat {T : Type} (raw : Flat T) : Flat (Annotated A T) :=
  (raw.followedBy (annotationsField A)).imap (fun (raw, annotations) => ⟨raw, annotations⟩)
    fun a => (a.raw, a.annotations)

/-! ## Contents -/

inductive ResourceContents
  | textResourceContents (uri : String) (mimeType : Option String) (text : String)
  | blobResourceContents (uri : String) (mimeType : Option String) (blob : String)
deriving DecidableEq

namespace ResourceContents

/-- The MIME type keeps its snake case name: on an enum `rename_all` renames the variants, not
their fields. -/
def fields (body : String) : Fields (String × Option String × String) :=
  (Fields.required "uri" .string).and
    ((Fields.optional "mime_type" .string).and (.required body .string))

def serialize : ResourceContents → Value
  | .textResourceContents uri mimeType text =>
    (Codec.struct (fields "text")).serialize (uri, mimeType, text)
  | .blobResourceContents uri mimeType blob =>
    (Codec.struct (fields "blob")).serialize (uri, mimeType, blob)

/-- A variant with fields of its own is read from objects only, unlike a struct. -/
def alternatives : List (Value → Option ResourceContents) :=
  [(Codec.flat (fields "text").flat).alternative
     fun (uri, mimeType, text) => .textResourceContents uri mimeType text,
   (Codec.flat (fields "blob").flat).alternative
     fun (uri, mimeType, blob) => .blobResourceContents uri mimeType blob]

def codec : Codec ResourceContents := ⟨serialize, untagged alternatives⟩

end ResourceContents

structure RawTextContent where
  text : String

def RawTextContent.fields : Fields RawTextContent :=
  (Fields.required "text" .string).imap .mk (·.text)

structure RawImageContent where
  data : String
  mimeType : String

def RawImageContent.fields : Fields RawImageContent :=
  ((Fields.required "data" .string).and (.required "mimeType" .string)).imap
    (fun (data, mimeType) => ⟨data, mimeType⟩) fun c => (c.data, c.mimeType)

abbrev ImageContent := Annotated A RawImageContent

def ImageContent.flat : Flat (ImageContent A) := Annotated.flat A RawImageContent.fields.flat

structure RawEmbeddedResource where
  resource : ResourceContents

def RawEmbeddedResource.fields : Fields RawEmbeddedResource :=
  (Fields.required "resource" ResourceContents.codec).imap .mk (·.resource)

abbrev EmbeddedResource := Annotated A RawEmbeddedResource

def EmbeddedResource.codec : Codec (EmbeddedResource A) :=
  .flat (Annotated.flat A RawEmbeddedResource.fields.flat)

structure RawAudioContent where
  data : String
  mimeType : String

def RawAudioContent.fields : Fields RawAudioContent :=
  ((Fields.required "data" .string).and (.required "mimeType" .string)).imap
    (fun (data, mimeType) => ⟨data, mimeType⟩) fun c => (c.data, c.mimeType)

abbrev AudioContent := Annotated A RawAudioContent

def AudioContent.flat : Flat (AudioContent A) := Annotated.flat A RawAudioContent.fields.flat

inductive RawContent
  | text (c : RawTextContent)
  | image (c : RawImageContent)
  | resource (c : RawEmbeddedResource)
  | audio (c : AudioContent A)

namespace RawContent

def serialize : RawContent A → JsonObject
  | .text c => ("type", .string "text") :: RawTextContent.fields.serialize c
  | .image c => ("type", .string "image") :: RawImageContent.fields.serialize c
  | .resource c => ("type", .string "resource") :: RawEmbeddedResource.fields.serialize c
  | .audio c => ("type", .string "audio") :: (AudioContent.flat A).serialize c

def variants : List (String × (Value → Option (RawContent A))) :=
  [("text", (Codec.struct RawTextContent.fields).alternative .text),
   ("image", (Codec.struct RawImageContent.fields).alternative .image),
   ("resource", (Codec.struct RawEmbeddedResource.fields).alternative .resource),
   ("audio", (Codec.flat (AudioContent.flat A)).alternative .audio)]

def flat : Flat (RawContent A) :=
  ⟨serialize A, fun o => internallyTagged "type" (variants A) (.object o)⟩

end RawContent

abbrev Content := Annotated A (RawContent A)

def Content.codec : Codec (Content A) := .flat (Annotated.flat A (RawContent.flat A))

/-! ## What comes back -/

variable {A}

theorem Role.readsBack (r : Role) : Role.codec.ReadsBackAt r := by
  cases r <;> rfl

/-- A JSON priority is a finite number. -/
def Annotations.FinitePriority (a : Annotations A) : Prop :=
  ∀ p, a.priority = some p → A.isFinite p = true

theorem Annotations.readsBackAt_iff {a : Annotations A} :
    (Annotations.fields A).ReadsBackAt a ↔ a.FinitePriority := by
  rw [Annotations.fields, Fields.readsBackAt_imap rfl fun _ => rfl,
    Fields.readsBackAt_and (by simp [Fields.option, Fields.and]),
    Fields.readsBackAt_and (by simp [Fields.option])]
  simp only [Fields.readsBackAt_option]
  have haudience : ∀ roles, a.audience = some roles →
      Role.codec.list.serialize roles ≠ .null ∧ Role.codec.list.ReadsBackAt roles := by
    intro roles _
    exact ⟨by simp [Codec.list], Codec.readsBackAt_list.mpr fun r _ => Role.readsBack r⟩
  have htimestamp : ∀ t, a.timestamp = some t →
      A.dateTime.serialize t ≠ .null ∧ A.dateTime.ReadsBackAt t :=
    fun t _ => A.dateTime_readsBack t
  constructor
  · rintro ⟨_, hpriority, _⟩ p hp
    by_contra hinf
    exact (hpriority p hp).1 (A.f32_null p (by simpa using hinf))
  · intro h
    exact ⟨haudience, fun p hp => A.f32_readsBack p (h p hp), htimestamp⟩

namespace Annotated

variable {T : Type} {raw : Flat T}

def FinitePriority (a : Annotated A T) : Prop :=
  ∀ ann, a.annotations = some ann → ann.FinitePriority

theorem readsBackAt_annotationsField {annotations : Option (Annotations A)} :
    (annotationsField A).ReadsBackAt annotations ↔
      ∀ ann, annotations = some ann → ann.FinitePriority := by
  rw [Fields.readsBackAt_option]
  refine forall₂_congr fun ann _ => ?_
  rw [Codec.readsBackAt_struct, Annotations.readsBackAt_iff]
  exact and_iff_right (by simp)

/-- Where the content has no annotations of its own, it comes back when its parts do. -/
theorem readsBackAt_iff {a : Annotated A T}
    (hnames : ∀ m ∈ raw.serialize a.raw, m.1 ≠ "annotations") :
    (Annotated.flat A raw).ReadsBackAt a ↔ raw.ReadsBackAt a.raw ∧ a.FinitePriority := by
  rw [Annotated.flat, Flat.readsBackAt_imap rfl fun _ => rfl,
    Flat.readsBackAt_followedBy (by simpa [Fields.option] using hnames),
    readsBackAt_annotationsField]
  rfl

theorem key_ne {a : Annotated A T} {name : String} (hname : name ≠ "annotations")
    (hraw : ∀ m ∈ raw.serialize a.raw, m.1 ≠ name) :
    ∀ m ∈ (Annotated.flat A raw).serialize a, m.1 ≠ name := by
  intro m hm
  rcases List.mem_append.mp hm with hm | hm
  · exact hraw m hm
  · exact Fields.key_ne _ (by simpa [Fields.option] using hname) m hm

/-- The annotations are read from the member `annotations` alone, which the content does not
see. -/
theorem deserialize_eq (o : JsonObject) :
    (Annotated.flat A raw).deserialize o =
      (raw.deserialize (without ["annotations"] o)).bind fun r =>
        ((annotationsField A).visitMap o).map fun annotations => ⟨r, annotations⟩ := by
  simp only [Annotated.flat, Flat.imap, Flat.followedBy, Fields.option, Option.map_bind,
    Function.comp_def, Option.map_map]

theorem deserialize_fields {f : Fields T} (hname : "annotations" ∉ f.names) (o : JsonObject) :
    (Annotated.flat A f.flat).deserialize o = (f.visitMap o).bind fun r =>
      ((annotationsField A).visitMap o).map fun annotations => ⟨r, annotations⟩ := by
  have hraw : f.flat.deserialize (without ["annotations"] o) = f.visitMap o := by
    refine f.visitMap_without o fun name hmem heq => hname ?_
    rwa [← List.mem_singleton.mp heq]
  rw [deserialize_eq, hraw]

end Annotated

namespace ResourceContents

theorem fields_readsBack {body : String} (huri : "uri" ≠ body) (hmime : "mime_type" ≠ body)
    (r : String × Option String × String) : (Codec.flat (fields body).flat).ReadsBackAt r := by
  obtain ⟨uri, mimeType, content⟩ := r
  show (fields body).ReadsBackAt (uri, mimeType, content)
  rw [fields,
    Fields.readsBackAt_and (by simp [Fields.required, Fields.option, Fields.and, huri]),
    Fields.readsBackAt_and (by simp [Fields.required, Fields.option, hmime])]
  refine ⟨Fields.readsBackAt_required.mpr rfl, ?_, Fields.readsBackAt_required.mpr rfl⟩
  exact Fields.readsBackAt_option.mpr fun _ _ => ⟨by simp [Codec.string], rfl⟩

theorem needs_body {body : String} : (fields body).Needs body :=
  .and_right _ (.and_right _ (Fields.needs_required body _))

/-- The reader of texts needs `text`, so that the other one takes what is written with
`blob`. -/
theorem readsBack (r : ResourceContents) : codec.ReadsBackAt r := by
  cases r with
  | textResourceContents uri mimeType text =>
    exact untagged_take (fields_readsBack (by decide) (by decide) (uri, mimeType, text))
  | blobResourceContents uri mimeType blob =>
    have hskip : (Codec.flat (fields "text").flat).deserialize
        ((Codec.struct (fields "blob")).serialize (uri, mimeType, blob)) = none :=
      needs_body _ (Fields.not_mem_keys _
        (by simp [fields, Fields.required, Fields.option, Fields.and]))
    exact (untagged_skip hskip).trans
      (untagged_take (fields_readsBack (by decide) (by decide) (uri, mimeType, blob)))

end ResourceContents

theorem RawTextContent.readsBack (c : RawTextContent) : fields.ReadsBackAt c :=
  (Fields.readsBackAt_imap rfl fun _ => rfl).mpr (Fields.readsBackAt_required.mpr rfl)

theorem dataFields_readBack (c : String × String) :
    ((Fields.required "data" .string).and (.required "mimeType" .string)).ReadsBackAt c := by
  rw [Fields.readsBackAt_and (by simp [Fields.required])]
  exact ⟨Fields.readsBackAt_required.mpr rfl, Fields.readsBackAt_required.mpr rfl⟩

theorem RawImageContent.readsBack (c : RawImageContent) : fields.ReadsBackAt c :=
  (Fields.readsBackAt_imap rfl fun _ => rfl).mpr (dataFields_readBack _)

theorem RawEmbeddedResource.readsBack (c : RawEmbeddedResource) : fields.ReadsBackAt c :=
  (Fields.readsBackAt_imap rfl fun _ => rfl).mpr
    (Fields.readsBackAt_required.mpr c.resource.readsBack)

theorem RawAudioContent.readsBack (c : RawAudioContent) : fields.ReadsBackAt c :=
  (Fields.readsBackAt_imap rfl fun _ => rfl).mpr (dataFields_readBack _)

namespace RawContent

/-- The annotations on the content of an audio block. -/
def innerAnnotations : RawContent A → Option (Annotations A)
  | .audio c => c.annotations
  | .text _ | .image _ | .resource _ => none

/-- By itself the content keeps them. -/
theorem readsBackAt_iff {c : RawContent A} :
    (flat A).ReadsBackAt c ↔ ∀ ann, c.innerAnnotations = some ann → ann.FinitePriority := by
  simp only [Flat.ReadsBackAt, flat]
  cases c with
  | text c =>
    rw [serialize, internallyTagged_struct_eq_some_iff rfl (by decide) fun _ _ => text.inj]
    exact iff_of_true c.readsBack (by simp [innerAnnotations])
  | image c =>
    rw [serialize, internallyTagged_struct_eq_some_iff rfl (by decide) fun _ _ => image.inj]
    exact iff_of_true c.readsBack (by simp [innerAnnotations])
  | resource c =>
    rw [serialize, internallyTagged_struct_eq_some_iff rfl (by decide) fun _ _ => resource.inj]
    exact iff_of_true c.readsBack (by simp [innerAnnotations])
  | audio c =>
    have hnames : ∀ m ∈ RawAudioContent.fields.serialize c.raw, m.1 ≠ "annotations" :=
      Fields.key_ne _ (by decide)
    have htype : ∀ m ∈ (AudioContent.flat A).serialize c, m.1 ≠ "type" :=
      Annotated.key_ne (by decide) (Fields.key_ne RawAudioContent.fields (by decide))
    rw [serialize, internallyTagged_cons rfl htype,
      Codec.alternative_eq_some_iff fun _ _ => RawContent.audio.inj]
    exact (Annotated.readsBackAt_iff hnames).trans (and_iff_right c.raw.readsBack)

/-- Only a content that is annotated itself writes a member `annotations`. -/
theorem key_ne_annotations {c : RawContent A} (h : c.innerAnnotations = none) :
    ∀ m ∈ serialize A c, m.1 ≠ "annotations" := by
  cases c with
  | text c | image c | resource c =>
    exact List.forall_mem_cons.mpr ⟨by simp, Fields.key_ne _ (by decide)⟩
  | audio c =>
    obtain ⟨raw, annotations⟩ := c
    cases h
    refine List.forall_mem_cons.mpr ⟨by simp, fun m hm => ?_⟩
    rcases List.mem_append.mp hm with hm | hm
    · exact Fields.key_ne RawAudioContent.fields (by decide) m hm
    · cases hm

/-- Where the members have no annotations, the content read from them has none. -/
theorem innerAnnotations_of_deserialize {c : RawContent A} {o : JsonObject}
    (ho : "annotations" ∉ keys o) (h : (flat A).deserialize o = some c) :
    c.innerAnnotations = none := by
  obtain ⟨name, read, hmem, hread⟩ := internallyTagged_object h
  simp only [variants, List.mem_cons, List.not_mem_nil, or_false, Prod.mk.injEq] at hmem
  rcases hmem with ⟨_, rfl⟩ | ⟨_, rfl⟩ | ⟨_, rfl⟩ | ⟨_, rfl⟩
  iterate 3
    · obtain ⟨_, _, rfl⟩ := Option.map_eq_some_iff.mp hread
      rfl
  · obtain ⟨audio, haudio, rfl⟩ := Option.map_eq_some_iff.mp hread
    have hnone : (annotationsField A).visitMap (without ["type"] o) = some none := by
      simp [Fields.option, member_of_not_mem (not_mem_keys_without ho)]
    have hdata := (Annotated.deserialize_eq _).symm.trans haudio
    rw [hnone] at hdata
    obtain ⟨raw, _, hraw⟩ := Option.bind_eq_some_iff.mp hdata
    cases hraw
    rfl

end RawContent

namespace Content

/-- What the object of a content can hold: one value of annotations, and no priority but a
finite one. -/
structure Writable (c : Content A) : Prop where
  innerAnnotations : c.raw.innerAnnotations = none
  finitePriority : c.FinitePriority

theorem readsBackAt_iff {c : Content A} : (codec A).ReadsBackAt c ↔ Writable c := by
  have hplain (h : c.raw.innerAnnotations = none) :
      (codec A).ReadsBackAt c ↔ c.FinitePriority := by
    rw [codec, Codec.readsBackAt_flat,
      Annotated.readsBackAt_iff (RawContent.key_ne_annotations h)]
    refine and_iff_right (RawContent.readsBackAt_iff.mpr ?_)
    simp [h]
  constructor
  · intro h
    have hread := (Annotated.deserialize_eq _).symm.trans h
    obtain ⟨raw, hraw, hann⟩ := Option.bind_eq_some_iff.mp hread
    obtain ⟨annotations, _, rfl⟩ := Option.map_eq_some_iff.mp hann
    have hinner := RawContent.innerAnnotations_of_deserialize
      (not_mem_keys_of_without List.mem_cons_self) hraw
    exact ⟨hinner, (hplain hinner).mp h⟩
  · rintro ⟨hinner, hfinite⟩
    exact (hplain hinner).mpr hfinite

end Content

/-! ## Results and messages -/

section Results

variable {L : Leaves}

theorem CallToolResult.comesBack_iff {r : CallToolResult L} :
    (CallToolResult.fields L).ReadsBackAt r ↔ ∀ c ∈ r.content, L.content.ReadsBackAt c := by
  refine (Fields.readsBackAt_imap rfl fun _ => rfl).trans ?_
  rw [Fields.readsBackAt_and (by simp [Fields.required, Fields.option]),
    Fields.readsBackAt_required, Codec.readsBackAt_list]
  exact and_iff_left (Fields.readsBack_optionalBool _)

theorem SamplingMessage.comesBack_iff {m : SamplingMessage L} :
    (SamplingMessage.fields L).ReadsBackAt m ↔ L.content.ReadsBackAt m.content := by
  refine (Fields.readsBackAt_imap rfl fun _ => rfl).trans ?_
  rw [Fields.readsBackAt_and (by simp [Fields.required]), Fields.readsBackAt_required,
    Fields.readsBackAt_required]
  exact and_iff_right m.role.readsBack

/-- The members of the message stand beside the model and the stop reason. -/
theorem CreateMessageResult.comesBack_iff {r : CreateMessageResult L} :
    (CreateMessageResult.codec L).ReadsBackAt r ↔ L.content.ReadsBackAt r.message.content := by
  have hmodel : ((Fields.required "model" .string).and (.optional "stopReason" .string)).ReadsBackAt
      (r.model, r.stopReason) := by
    rw [Fields.readsBackAt_and (by decide)]
    exact ⟨Fields.readsBackAt_required.mpr rfl, Fields.readsBack_optionalString _⟩
  have hnames : ∀ m ∈ (SamplingMessage.fields L).serialize r.message,
      m.1 ∉ ["model", "stopReason"] := by
    intro m hm
    have hname : m.1 ∈ ["role", "content"] := (SamplingMessage.fields L).mem_names _ m hm
    exact (by decide : ∀ name ∈ ["role", "content"], name ∉ ["model", "stopReason"]) _ hname
  refine (Codec.readsBackAt_imap rfl fun _ => rfl).trans ?_
  rw [Fields.readsBackAt_flatten hnames]
  exact (and_iff_right hmodel).trans SamplingMessage.comesBack_iff

end Results

/-- The leaves with these contents. -/
def Leaves.withContent (L : Leaves) (A : AnnotationLeaves) : Leaves :=
  { L with Content := Rmcp.Content A, content := Rmcp.Content.codec A }

/-- A content comes back exactly when it is `Writable`, also inside of a result or a
message. -/
theorem content_readsBack_iff (A : AnnotationLeaves) (L : Leaves) :
    (∀ c : Content A, (Content.codec A).ReadsBackAt c ↔ Content.Writable c) ∧
    (∀ r : CallToolResult (L.withContent A),
      (Codec.struct (CallToolResult.fields (L.withContent A))).ReadsBackAt r ↔
        ∀ c ∈ r.content, Content.Writable (A := A) c) ∧
    (∀ m : SamplingMessage (L.withContent A),
      (Codec.struct (SamplingMessage.fields (L.withContent A))).ReadsBackAt m ↔
        Content.Writable (A := A) m.content) ∧
    ∀ r : CreateMessageResult (L.withContent A),
      (CreateMessageResult.codec (L.withContent A)).ReadsBackAt r ↔
        Content.Writable (A := A) r.message.content :=
  ⟨fun _ => Content.readsBackAt_iff,
    fun _ => CallToolResult.comesBack_iff.trans (forall₂_congr fun _ _ => Content.readsBackAt_iff),
    fun _ => SamplingMessage.comesBack_iff.trans Content.readsBackAt_iff,
    fun _ => CreateMessageResult.comesBack_iff.trans Content.readsBackAt_iff⟩

/-- Floats by their bits, where there is one for what is not finite, and times as texts. -/
def plainAnnotationLeaves : AnnotationLeaves where
  F32 := Option UInt64
  DateTime := String
  f32 :=
    { serialize := fun p => (p.map fun bits => Value.number (.float bits)).getD .null
      deserialize
        | .number (.float bits) => some (some bits)
        | _ => none }
  isFinite := Option.isSome
  dateTime := .string
  f32_readsBack p hp := by
    obtain ⟨bits, rfl⟩ := Option.isSome_iff_exists.mp hp
    exact ⟨by simp, rfl⟩
  f32_null p hp := by
    have hnone : p = none := by simpa using hp
    rw [hnone]
    rfl
  dateTime_readsBack t := ⟨by simp [Codec.string], rfl⟩

/-- An audio block whose content is annotated for the user, and the block as well where
`outer` says so. -/
def annotatedAudio (outer : Option (Annotations plainAnnotationLeaves)) :
    Content plainAnnotationLeaves :=
  ⟨.audio ⟨⟨"UklGRg==", "audio/wav"⟩, some ⟨some [.user], none, none⟩⟩, outer⟩

/-- The annotations of the content become those of the block. Where both are there, the
decoder rejects the object, in which they are two members of one name. -/
theorem audio_annotations_lost :
    ((Content.codec plainAnnotationLeaves).deserialize
        ((Content.codec plainAnnotationLeaves).serialize (annotatedAudio none)) =
      some ⟨.audio ⟨⟨"UklGRg==", "audio/wav"⟩, none⟩, some ⟨some [.user], none, none⟩⟩) ∧
    (Content.codec plainAnnotationLeaves).deserialize
        ((Content.codec plainAnnotationLeaves).serialize
          (annotatedAudio (some ⟨some [.assistant], none, none⟩))) = none ∧
    ¬ ∀ c : Content plainAnnotationLeaves, (Content.codec plainAnnotationLeaves).ReadsBackAt c := by
  refine ⟨rfl, rfl, fun h => ?_⟩
  have hinner := (Content.readsBackAt_iff.mp (h (annotatedAudio none))).innerAnnotations
  simp [annotatedAudio, RawContent.innerAnnotations] at hinner

end Rmcp
