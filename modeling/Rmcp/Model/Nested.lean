import Rmcp.Model.RoundTrip
import Rmcp.Model.PromptContent
import Rmcp.Support.BTreeMap

/-!
# The nested types

What the params and results of MCP carry: capabilities, tools, prompts, resources, references
and preferences, with the content blocks as they are. Floats and times stay parameters.

Result: `mcp_messages_come_back_iff`, which messages of the protocol come back from the wire as
they were.
-/

namespace Rmcp

open Serde

/-! ## Capabilities -/

abbrev ExperimentalCapabilities := BTreeMap String JsonObject

structure PromptsCapability where
  listChanged : Option Bool

def PromptsCapability.fields : Fields PromptsCapability :=
  (Fields.optional "listChanged" .bool).imap .mk (·.listChanged)

structure ResourcesCapability where
  subscribe : Option Bool
  listChanged : Option Bool

def ResourcesCapability.fields : Fields ResourcesCapability :=
  ((Fields.optional "subscribe" .bool).and (.optional "listChanged" .bool)).imap
    (fun (subscribe, listChanged) => ⟨subscribe, listChanged⟩) fun c => (c.subscribe, c.listChanged)

structure ToolsCapability where
  listChanged : Option Bool

def ToolsCapability.fields : Fields ToolsCapability :=
  (Fields.optional "listChanged" .bool).imap .mk (·.listChanged)

structure RootsCapabilities where
  listChanged : Option Bool

/-- The member is written even when there is no value. -/
def RootsCapabilities.fields : Fields RootsCapabilities :=
  (Fields.nullable "listChanged" .bool).imap .mk (·.listChanged)

structure ClientCapabilities where
  experimental : Option ExperimentalCapabilities
  roots : Option RootsCapabilities
  sampling : Option JsonObject

def ClientCapabilities.fields : Fields ClientCapabilities :=
  ((Fields.optional "experimental" (.btreeMap .object)).and
    ((Fields.optional "roots" (.struct RootsCapabilities.fields)).and
      (.optional "sampling" .object))).imap
    (fun (experimental, roots, sampling) => ⟨experimental, roots, sampling⟩)
    fun c => (c.experimental, c.roots, c.sampling)

structure ServerCapabilities where
  experimental : Option ExperimentalCapabilities
  logging : Option JsonObject
  completions : Option JsonObject
  prompts : Option PromptsCapability
  resources : Option ResourcesCapability
  tools : Option ToolsCapability

def ServerCapabilities.fields : Fields ServerCapabilities :=
  ((Fields.optional "experimental" (.btreeMap .object)).and
    ((Fields.optional "logging" .object).and
      ((Fields.optional "completions" .object).and
        ((Fields.optional "prompts" (.struct PromptsCapability.fields)).and
          ((Fields.optional "resources" (.struct ResourcesCapability.fields)).and
            (.optional "tools" (.struct ToolsCapability.fields))))))).imap
    (fun (experimental, logging, completions, prompts, resources, tools) =>
      ⟨experimental, logging, completions, prompts, resources, tools⟩)
    fun c => (c.experimental, c.logging, c.completions, c.prompts, c.resources, c.tools)

/-! ## Tools and prompts -/

structure ToolAnnotations where
  title : Option String
  readOnlyHint : Option Bool
  destructiveHint : Option Bool
  idempotentHint : Option Bool
  openWorldHint : Option Bool

def ToolAnnotations.fields : Fields ToolAnnotations :=
  ((Fields.optional "title" .string).and
    ((Fields.optional "readOnlyHint" .bool).and
      ((Fields.optional "destructiveHint" .bool).and
        ((Fields.optional "idempotentHint" .bool).and (.optional "openWorldHint" .bool))))).imap
    (fun (title, readOnlyHint, destructiveHint, idempotentHint, openWorldHint) =>
      ⟨title, readOnlyHint, destructiveHint, idempotentHint, openWorldHint⟩)
    fun a => (a.title, a.readOnlyHint, a.destructiveHint, a.idempotentHint, a.openWorldHint)

structure Tool where
  name : String
  description : Option String
  inputSchema : JsonObject
  annotations : Option ToolAnnotations

def Tool.fields : Fields Tool :=
  ((Fields.required "name" .string).and
    ((Fields.optional "description" .string).and
      ((Fields.required "inputSchema" .object).and
        (.optional "annotations" (.struct ToolAnnotations.fields))))).imap
    (fun (name, description, inputSchema, annotations) =>
      ⟨name, description, inputSchema, annotations⟩)
    fun t => (t.name, t.description, t.inputSchema, t.annotations)

structure PromptArgument where
  name : String
  description : Option String
  required : Option Bool

def PromptArgument.fields : Fields PromptArgument :=
  ((Fields.required "name" .string).and
    ((Fields.optional "description" .string).and (.optional "required" .bool))).imap
    (fun (name, description, required) => ⟨name, description, required⟩)
    fun a => (a.name, a.description, a.required)

structure Prompt where
  name : String
  description : Option String
  arguments : Option (List PromptArgument)

def Prompt.fields : Fields Prompt :=
  ((Fields.required "name" .string).and
    ((Fields.optional "description" .string).and
      (.optional "arguments" (.list (.struct PromptArgument.fields))))).imap
    (fun (name, description, arguments) => ⟨name, description, arguments⟩)
    fun p => (p.name, p.description, p.arguments)

inductive PromptMessageRole
  | user
  | assistant
deriving DecidableEq

def PromptMessageRole.name : PromptMessageRole → String
  | .user => "user"
  | .assistant => "assistant"

def PromptMessageRole.codec : Codec PromptMessageRole := .unitEnum name [.user, .assistant]

structure PromptMessage (A : AnnotationLeaves) where
  role : PromptMessageRole
  content : PromptMessageContent A

def PromptMessage.fields (A : AnnotationLeaves) : Fields (PromptMessage A) :=
  ((Fields.required "role" PromptMessageRole.codec).and
    (.required "content" (PromptMessageContent.codec A))).imap
    (fun (role, content) => ⟨role, content⟩) fun m => (m.role, m.content)

/-! ## Resources and references -/

structure RawResource where
  uri : String
  name : String
  description : Option String
  mimeType : Option String
  size : Option UInt32

def RawResource.fields : Fields RawResource :=
  ((Fields.required "uri" .string).and
    ((Fields.required "name" .string).and
      ((Fields.optional "description" .string).and
        ((Fields.optional "mimeType" .string).and (.optional "size" .u32))))).imap
    (fun (uri, name, description, mimeType, size) => ⟨uri, name, description, mimeType, size⟩)
    fun r => (r.uri, r.name, r.description, r.mimeType, r.size)

structure RawResourceTemplate where
  uriTemplate : String
  name : String
  description : Option String
  mimeType : Option String

def RawResourceTemplate.fields : Fields RawResourceTemplate :=
  ((Fields.required "uriTemplate" .string).and
    ((Fields.required "name" .string).and
      ((Fields.optional "description" .string).and (.optional "mimeType" .string)))).imap
    (fun (uriTemplate, name, description, mimeType) => ⟨uriTemplate, name, description, mimeType⟩)
    fun r => (r.uriTemplate, r.name, r.description, r.mimeType)

section Annotated

variable (A : AnnotationLeaves)

abbrev Resource := Annotated A RawResource

def Resource.codec : Codec (Resource A) := .flat (Annotated.flat A RawResource.fields.flat)

abbrev ResourceTemplate := Annotated A RawResourceTemplate

def ResourceTemplate.codec : Codec (ResourceTemplate A) :=
  .flat (Annotated.flat A RawResourceTemplate.fields.flat)

end Annotated

structure ResourceReference where
  uri : String

def ResourceReference.fields : Fields ResourceReference :=
  (Fields.required "uri" .string).imap .mk (·.uri)

structure PromptReference where
  name : String

def PromptReference.fields : Fields PromptReference :=
  (Fields.required "name" .string).imap .mk (·.name)

inductive Reference
  | resource (r : ResourceReference)
  | prompt (r : PromptReference)

namespace Reference

def serialize : Reference → JsonObject
  | .resource r => ("type", .string "ref/resource") :: ResourceReference.fields.serialize r
  | .prompt r => ("type", .string "ref/prompt") :: PromptReference.fields.serialize r

def variants : List (String × (Value → Option Reference)) :=
  [("ref/resource", (Codec.struct ResourceReference.fields).alternative .resource),
   ("ref/prompt", (Codec.struct PromptReference.fields).alternative .prompt)]

def codec : Codec Reference := ⟨fun r => .object (serialize r), internallyTagged "type" variants⟩

end Reference

/-! ## Preferences -/

structure ModelHint where
  name : Option String

def ModelHint.fields : Fields ModelHint := (Fields.optional "name" .string).imap .mk (·.name)

structure ModelPreferences (A : AnnotationLeaves) where
  hints : Option (List ModelHint)
  costPriority : Option A.F32
  speedPriority : Option A.F32
  intelligencePriority : Option A.F32

def ModelPreferences.fields (A : AnnotationLeaves) : Fields (ModelPreferences A) :=
  ((Fields.optional "hints" (.list (.struct ModelHint.fields))).and
    ((Fields.optional "costPriority" A.f32).and
      ((Fields.optional "speedPriority" A.f32).and
        (.optional "intelligencePriority" A.f32)))).imap
    (fun (hints, costPriority, speedPriority, intelligencePriority) =>
      ⟨hints, costPriority, speedPriority, intelligencePriority⟩)
    fun p => (p.hints, p.costPriority, p.speedPriority, p.intelligencePriority)

/-- The nested types as they are in the SDK. -/
def AnnotationLeaves.leaves (A : AnnotationLeaves) : Leaves where
  clientCapabilities := .struct ClientCapabilities.fields
  serverCapabilities := .struct ServerCapabilities.fields
  reference := Reference.codec
  content := Content.codec A
  prompt := .struct Prompt.fields
  promptMessage := .struct (PromptMessage.fields A)
  resource := Resource.codec A
  resourceTemplate := ResourceTemplate.codec A
  resourceContents := ResourceContents.codec
  tool := .struct Tool.fields
  modelPreferences := .struct (ModelPreferences.fields A)
  f32 := A.f32

/-! ## What comes back -/

section Optional

variable {α : Type} {name : String}

/-- A struct is written as an object. -/
theorem Fields.readsBack_optionalStruct {f : Fields α} (h : ∀ a, f.ReadsBackAt a) (v : Option α) :
    (Fields.optional name (.struct f)).ReadsBackAt v :=
  (Fields.readsBackAt_optional (by simp)).mpr fun a _ => h a

theorem Fields.readsBack_optionalStructs {f : Fields α} (h : ∀ a, f.ReadsBackAt a)
    (v : Option (List α)) : (Fields.optional name (.list (.struct f))).ReadsBackAt v :=
  (Fields.readsBackAt_optional (by simp [Codec.list])).mpr fun _ _ =>
    Codec.readsBackAt_list.mpr fun a _ => h a

theorem Fields.readsBack_experimental (e : Option ExperimentalCapabilities) :
    (Fields.optional name (.btreeMap .object)).ReadsBackAt e :=
  (Fields.readsBackAt_optional (by simp [Codec.btreeMap])).mpr fun m _ =>
    Codec.btreeMap_readsBack m fun _ _ => rfl

/-- A float that is not finite comes back as no value. -/
theorem Fields.readsBackAt_optionalF32 {A : AnnotationLeaves} {v : Option A.F32} :
    (Fields.optional name A.f32).ReadsBackAt v ↔ ∀ p, v = some p → A.isFinite p = true := by
  rw [Fields.readsBackAt_option]
  refine forall₂_congr fun p _ => ?_
  cases hfinite : A.isFinite p with
  | true => exact iff_of_true (A.f32_readsBack p hfinite) rfl
  | false => exact iff_of_false (fun h => h.1 (A.f32_null p hfinite)) Bool.false_ne_true

end Optional

theorem PromptsCapability.comesBack (c : PromptsCapability) :
    PromptsCapability.fields.ReadsBackAt c :=
  (Fields.readsBackAt_imap rfl fun _ => rfl).mpr (Fields.readsBack_optionalBool _)

theorem ResourcesCapability.comesBack (c : ResourcesCapability) :
    ResourcesCapability.fields.ReadsBackAt c := by
  refine (Fields.readsBackAt_imap rfl fun _ => rfl).mpr ?_
  rw [Fields.readsBackAt_and (by decide)]
  exact ⟨Fields.readsBack_optionalBool _, Fields.readsBack_optionalBool _⟩

theorem ToolsCapability.comesBack (c : ToolsCapability) : ToolsCapability.fields.ReadsBackAt c :=
  (Fields.readsBackAt_imap rfl fun _ => rfl).mpr (Fields.readsBack_optionalBool _)

theorem RootsCapabilities.comesBack (c : RootsCapabilities) :
    RootsCapabilities.fields.ReadsBackAt c := by
  refine (Fields.readsBackAt_imap rfl fun _ => rfl).mpr ?_
  exact Fields.readsBackAt_option.mpr fun b _ => ⟨by simp [Codec.bool], rfl⟩

theorem ClientCapabilities.comesBack (c : ClientCapabilities) :
    ClientCapabilities.fields.ReadsBackAt c := by
  refine (Fields.readsBackAt_imap rfl fun _ => rfl).mpr ?_
  rw [Fields.readsBackAt_and (by decide), Fields.readsBackAt_and (by decide)]
  exact ⟨Fields.readsBack_experimental _,
    Fields.readsBack_optionalStruct RootsCapabilities.comesBack _,
    Fields.readsBack_optionalObject _⟩

theorem ServerCapabilities.comesBack (c : ServerCapabilities) :
    ServerCapabilities.fields.ReadsBackAt c := by
  refine (Fields.readsBackAt_imap rfl fun _ => rfl).mpr ?_
  rw [Fields.readsBackAt_and (by decide), Fields.readsBackAt_and (by decide),
    Fields.readsBackAt_and (by decide), Fields.readsBackAt_and (by decide),
    Fields.readsBackAt_and (by decide)]
  exact ⟨Fields.readsBack_experimental _, Fields.readsBack_optionalObject _,
    Fields.readsBack_optionalObject _,
    Fields.readsBack_optionalStruct PromptsCapability.comesBack _,
    Fields.readsBack_optionalStruct ResourcesCapability.comesBack _,
    Fields.readsBack_optionalStruct ToolsCapability.comesBack _⟩

theorem ToolAnnotations.comesBack (a : ToolAnnotations) : ToolAnnotations.fields.ReadsBackAt a := by
  refine (Fields.readsBackAt_imap rfl fun _ => rfl).mpr ?_
  rw [Fields.readsBackAt_and (by decide), Fields.readsBackAt_and (by decide),
    Fields.readsBackAt_and (by decide), Fields.readsBackAt_and (by decide)]
  exact ⟨Fields.readsBack_optionalString _, Fields.readsBack_optionalBool _,
    Fields.readsBack_optionalBool _, Fields.readsBack_optionalBool _,
    Fields.readsBack_optionalBool _⟩

theorem Tool.comesBack (t : Tool) : Tool.fields.ReadsBackAt t := by
  refine (Fields.readsBackAt_imap rfl fun _ => rfl).mpr ?_
  rw [Fields.readsBackAt_and (by decide), Fields.readsBackAt_and (by decide),
    Fields.readsBackAt_and (by decide), Fields.readsBackAt_required, Fields.readsBackAt_required]
  exact ⟨rfl, Fields.readsBack_optionalString _, rfl,
    Fields.readsBack_optionalStruct ToolAnnotations.comesBack _⟩

theorem PromptArgument.comesBack (a : PromptArgument) : PromptArgument.fields.ReadsBackAt a := by
  refine (Fields.readsBackAt_imap rfl fun _ => rfl).mpr ?_
  rw [Fields.readsBackAt_and (by decide), Fields.readsBackAt_and (by decide),
    Fields.readsBackAt_required]
  exact ⟨rfl, Fields.readsBack_optionalString _, Fields.readsBack_optionalBool _⟩

theorem Prompt.comesBack (p : Prompt) : Prompt.fields.ReadsBackAt p := by
  refine (Fields.readsBackAt_imap rfl fun _ => rfl).mpr ?_
  rw [Fields.readsBackAt_and (by decide), Fields.readsBackAt_and (by decide),
    Fields.readsBackAt_required]
  exact ⟨rfl, Fields.readsBack_optionalString _,
    Fields.readsBack_optionalStructs PromptArgument.comesBack _⟩

theorem RawResource.comesBack (r : RawResource) : RawResource.fields.ReadsBackAt r := by
  refine (Fields.readsBackAt_imap rfl fun _ => rfl).mpr ?_
  rw [Fields.readsBackAt_and (by decide), Fields.readsBackAt_and (by decide),
    Fields.readsBackAt_and (by decide), Fields.readsBackAt_and (by decide),
    Fields.readsBackAt_required, Fields.readsBackAt_required]
  exact ⟨rfl, rfl, Fields.readsBack_optionalString _, Fields.readsBack_optionalString _,
    Fields.readsBack_optionalU32 _⟩

theorem RawResourceTemplate.comesBack (r : RawResourceTemplate) :
    RawResourceTemplate.fields.ReadsBackAt r := by
  refine (Fields.readsBackAt_imap rfl fun _ => rfl).mpr ?_
  rw [Fields.readsBackAt_and (by decide), Fields.readsBackAt_and (by decide),
    Fields.readsBackAt_and (by decide), Fields.readsBackAt_required, Fields.readsBackAt_required]
  exact ⟨rfl, rfl, Fields.readsBack_optionalString _, Fields.readsBack_optionalString _⟩

theorem Reference.comesBack (r : Reference) : Reference.codec.ReadsBackAt r := by
  cases r with
  | resource r =>
    show internallyTagged "type" variants (.object
      (("type", .string "ref/resource") :: ResourceReference.fields.serialize r)) =
        some (.resource r)
    rw [internallyTagged_struct_eq_some_iff rfl (by decide) fun _ _ => resource.inj]
    exact (Fields.readsBackAt_imap rfl fun _ => rfl).mpr (Fields.readsBackAt_required.mpr rfl)
  | prompt r =>
    show internallyTagged "type" variants (.object
      (("type", .string "ref/prompt") :: PromptReference.fields.serialize r)) = some (.prompt r)
    rw [internallyTagged_struct_eq_some_iff rfl (by decide) fun _ _ => prompt.inj]
    exact (Fields.readsBackAt_imap rfl fun _ => rfl).mpr (Fields.readsBackAt_required.mpr rfl)

theorem ModelHint.comesBack (h : ModelHint) : ModelHint.fields.ReadsBackAt h :=
  (Fields.readsBackAt_imap rfl fun _ => rfl).mpr (Fields.readsBack_optionalString _)

variable {A : AnnotationLeaves}

/-- All priorities are finite numbers. -/
structure ModelPreferences.Writable (p : ModelPreferences A) : Prop where
  cost : ∀ c, p.costPriority = some c → A.isFinite c = true
  speed : ∀ s, p.speedPriority = some s → A.isFinite s = true
  intelligence : ∀ i, p.intelligencePriority = some i → A.isFinite i = true

theorem ModelPreferences.comesBack_iff {p : ModelPreferences A} :
    (ModelPreferences.fields A).ReadsBackAt p ↔ p.Writable := by
  refine (Fields.readsBackAt_imap rfl fun _ => rfl).trans ?_
  rw [Fields.readsBackAt_and (by simp [Fields.option, Fields.and]),
    Fields.readsBackAt_and (by simp [Fields.option, Fields.and]),
    Fields.readsBackAt_and (by simp [Fields.option])]
  simp only [Fields.readsBackAt_optionalF32]
  constructor
  · rintro ⟨_, hcost, hspeed, hintelligence⟩
    exact ⟨hcost, hspeed, hintelligence⟩
  · rintro ⟨hcost, hspeed, hintelligence⟩
    exact ⟨Fields.readsBack_optionalStructs ModelHint.comesBack _, hcost, hspeed, hintelligence⟩

/-- The annotations of an image or a resource have no priority but a finite one. -/
def PromptMessageContent.Writable : PromptMessageContent A → Prop
  | .text _ => True
  | .image c => c.FinitePriority
  | .resource c => c.FinitePriority

theorem PromptMessageContent.comesBack_iff {c : PromptMessageContent A} :
    (PromptMessageContent.codec A).ReadsBackAt c ↔ c.Writable := by
  cases c with
  | text s =>
    show internallyTagged "type" (variants A) (.object
      (("type", .string "text") :: textFields.serialize s)) = some (.text s) ↔ _
    rw [internallyTagged_struct_eq_some_iff rfl (by decide) fun _ _ => text.inj]
    exact iff_of_true (Fields.readsBackAt_required.mpr rfl) trivial
  | image c =>
    have hnames : ∀ m ∈ RawImageContent.fields.serialize c.raw, m.1 ≠ "annotations" :=
      Fields.key_ne _ (by decide)
    have htype : ∀ m ∈ (ImageContent.flat A).serialize c, m.1 ≠ "type" :=
      Annotated.key_ne (by decide) (Fields.key_ne RawImageContent.fields (by decide))
    show internallyTagged "type" (variants A) (.object
      (("type", .string "image") :: (ImageContent.flat A).serialize c)) = some (.image c) ↔ _
    rw [internallyTagged_cons rfl htype, Codec.alternative_eq_some_iff fun _ _ => image.inj]
    exact (Annotated.readsBackAt_iff hnames).trans (and_iff_right c.raw.readsBack)
  | resource c =>
    have hnames : ∀ m ∈ RawEmbeddedResource.fields.serialize c.raw, m.1 ≠ "annotations" :=
      Fields.key_ne _ (by decide)
    show internallyTagged "type" (variants A) (.object
      (("type", .string "resource") :: (resourceFields A).serialize c)) = some (.resource c) ↔ _
    rw [internallyTagged_struct_eq_some_iff rfl (by simp [resourceFields, Fields.required])
      fun _ _ => resource.inj, resourceFields, Fields.readsBackAt_required]
    exact (Annotated.readsBackAt_iff hnames).trans (and_iff_right c.raw.readsBack)

theorem PromptMessageRole.comesBack (r : PromptMessageRole) :
    PromptMessageRole.codec.ReadsBackAt r := by
  unfold Codec.ReadsBackAt
  cases r <;> decide

theorem PromptMessage.comesBack_iff {m : PromptMessage A} :
    (PromptMessage.fields A).ReadsBackAt m ↔ m.content.Writable := by
  refine (Fields.readsBackAt_imap rfl fun _ => rfl).trans ?_
  rw [Fields.readsBackAt_and (by simp [Fields.required]), Fields.readsBackAt_required,
    Fields.readsBackAt_required, PromptMessageContent.comesBack_iff]
  exact and_iff_right m.role.comesBack

/-- A struct that is annotated comes back when its annotations do. -/
theorem Annotated.comesBack_iff {T : Type} {f : Fields T} {a : Annotated A T}
    (hname : "annotations" ∉ f.names) (hraw : f.ReadsBackAt a.raw) :
    (Codec.flat (Annotated.flat A f.flat)).ReadsBackAt a ↔ a.FinitePriority :=
  (Annotated.readsBackAt_iff (f.key_ne hname)).trans (and_iff_right hraw)

/-! ## Messages -/

/-- A ping has no metadata, and a list request has params. -/
def ClientRequest.Writable : ClientRequest A.leaves → Prop
  | .pingRequest r => r.extensions.metaEntry = none
  | .listPromptsRequest r | .listResourcesRequest r | .listResourceTemplatesRequest r
  | .listToolsRequest r => r.params ≠ none
  | .initializeRequest _ | .completeRequest _ | .setLevelRequest _ | .getPromptRequest _
  | .readResourceRequest _ | .subscribeRequest _ | .unsubscribeRequest _ | .callToolRequest _ =>
    True

theorem ClientRequest.writable_iff (r : ClientRequest A.leaves) : r.ComesBack ↔ r.Writable := by
  cases r with
  | initializeRequest r => exact iff_of_true r.params.capabilities.comesBack trivial
  | completeRequest r => exact iff_of_true r.params.ref.comesBack trivial
  | pingRequest r | listPromptsRequest r | listResourcesRequest r
  | listResourceTemplatesRequest r | listToolsRequest r => exact Iff.rfl
  | setLevelRequest r | getPromptRequest r | readResourceRequest r | subscribeRequest r
  | unsubscribeRequest r | callToolRequest r => exact Iff.rfl

structure CreateMessageRequestParam.Writable (p : CreateMessageRequestParam A.leaves) : Prop where
  messages : ∀ m ∈ p.messages, Content.Writable (A := A) m.content
  modelPreferences : ∀ preferences : ModelPreferences A,
    p.modelPreferences = some preferences → preferences.Writable
  temperature : ∀ t : A.F32, p.temperature = some t → A.isFinite t = true
  metadata : p.metadata ≠ some .null

theorem CreateMessageRequestParam.writable_iff (p : CreateMessageRequestParam A.leaves) :
    p.ComesBack ↔ p.Writable := by
  have hpreferences : (∀ preferences : ModelPreferences A, p.modelPreferences = some preferences →
      (Codec.struct (ModelPreferences.fields A)).serialize preferences ≠ .null ∧
        (Codec.struct (ModelPreferences.fields A)).ReadsBackAt preferences) ↔
      ∀ preferences : ModelPreferences A,
        p.modelPreferences = some preferences → preferences.Writable :=
    forall₂_congr fun _ _ => (and_iff_right (by simp)).trans ModelPreferences.comesBack_iff
  have htemperature : (∀ t : A.F32, p.temperature = some t →
      A.f32.serialize t ≠ .null ∧ A.f32.ReadsBackAt t) ↔
      ∀ t : A.F32, p.temperature = some t → A.isFinite t = true :=
    Fields.readsBackAt_option.symm.trans (show (Fields.optional "temperature" A.f32).ReadsBackAt
      p.temperature ↔ _ from Fields.readsBackAt_optionalF32)
  constructor
  · intro h
    exact ⟨fun m hm => Content.readsBackAt_iff.mp (h.messages m hm),
      hpreferences.mp h.modelPreferences, htemperature.mp h.temperature, h.metadata⟩
  · intro h
    exact ⟨fun m hm => Content.readsBackAt_iff.mpr (h.messages m hm),
      hpreferences.mpr h.modelPreferences, htemperature.mpr h.temperature, h.metadata⟩

/-- A request without params has no metadata. -/
def ServerRequest.Writable : ServerRequest A.leaves → Prop
  | .createMessageRequest r => r.params.Writable
  | .pingRequest r | .listRootsRequest r => r.extensions.metaEntry = none

theorem ServerRequest.writable_iff (r : ServerRequest A.leaves) : r.ComesBack ↔ r.Writable := by
  cases r with
  | createMessageRequest r => exact r.params.writable_iff
  | pingRequest r | listRootsRequest r => exact Iff.rfl

def ClientResult.Writable : ClientResult A.leaves → Prop
  | .createMessageResult r => Content.Writable (A := A) r.message.content
  | .listRootsResult _ | .emptyResult _ => True

theorem ClientResult.writable_iff (r : ClientResult A.leaves) : r.ComesBack ↔ r.Writable := by
  cases r with
  | createMessageResult r => exact Content.readsBackAt_iff
  | listRootsResult r | emptyResult r => exact Iff.rfl

def ServerResult.Writable : ServerResult A.leaves → Prop
  | .getPromptResult r => ∀ m : PromptMessage A, m ∈ r.messages → m.content.Writable
  | .listResourcesResult r => ∀ resource : Resource A, resource ∈ r.items → resource.FinitePriority
  | .listResourceTemplatesResult r =>
    ∀ template : ResourceTemplate A, template ∈ r.items → template.FinitePriority
  | .callToolResult r => ∀ c : Content A, c ∈ r.content → Content.Writable c
  | .initializeResult _ | .completeResult _ | .listPromptsResult _ | .readResourceResult _
  | .listToolsResult _ | .emptyResult _ => True

theorem ServerResult.writable_iff (r : ServerResult A.leaves) : r.ComesBack ↔ r.Writable := by
  cases r with
  | initializeResult r => exact iff_of_true r.capabilities.comesBack trivial
  | completeResult r | emptyResult r => exact Iff.rfl
  | getPromptResult r => exact forall₂_congr fun _ _ => PromptMessage.comesBack_iff
  | listPromptsResult r => exact iff_of_true (fun prompt _ => prompt.comesBack) trivial
  | listResourcesResult r =>
    exact forall₂_congr fun resource _ => Annotated.comesBack_iff (by decide) resource.raw.comesBack
  | listResourceTemplatesResult r =>
    exact forall₂_congr fun template _ => Annotated.comesBack_iff (by decide) template.raw.comesBack
  | readResourceResult r => exact iff_of_true (fun c _ => c.readsBack) trivial
  | callToolResult r => exact forall₂_congr fun _ _ => Content.readsBackAt_iff
  | listToolsResult r => exact iff_of_true (fun tool _ => tool.comesBack) trivial

theorem ClientJsonRpcMessage.comesBack_iff (m : ClientJsonRpcMessage A.leaves.payloads) :
    (ClientJsonRpcMessage.codec A.leaves).ReadsBackAt m ↔
      m.ComesBack ClientRequest.Writable ClientResult.Writable ClientNotification.ComesBack :=
  ((messages_come_back_iff A.leaves).1 m).trans (JsonRpcMessage.comesBack_congr
    ClientRequest.writable_iff ClientResult.writable_iff fun _ => Iff.rfl)

theorem ServerJsonRpcMessage.comesBack_iff (m : ServerJsonRpcMessage A.leaves.payloads) :
    (ServerJsonRpcMessage.codec A.leaves).ReadsBackAt m ↔
      m.ComesBack ServerRequest.Writable ServerResult.Writable ServerNotification.ComesBack :=
  ((messages_come_back_iff A.leaves).2 m).trans (JsonRpcMessage.comesBack_congr
    ServerRequest.writable_iff ServerResult.writable_iff fun _ => Iff.rfl)

/-- In both roles, a message of the protocol comes back from the wire as it was exactly when it is
no empty batch of responses, the data of its errors is not null, and each of its payloads is
`Writable`. -/
theorem mcp_messages_come_back_iff (A : AnnotationLeaves) :
    (∀ m : ClientJsonRpcMessage A.leaves.payloads,
      (ClientJsonRpcMessage.codec A.leaves).ReadsBackAt m ↔
        m.ComesBack ClientRequest.Writable ClientResult.Writable ClientNotification.ComesBack) ∧
    ∀ m : ServerJsonRpcMessage A.leaves.payloads,
      (ServerJsonRpcMessage.codec A.leaves).ReadsBackAt m ↔
        m.ComesBack ServerRequest.Writable ServerResult.Writable ServerNotification.ComesBack :=
  ⟨ClientJsonRpcMessage.comesBack_iff, ServerJsonRpcMessage.comesBack_iff⟩

/-- The answer to a call of a tool, with one content. -/
def toolAnswer (c : Content plainAnnotationLeaves) :
    ServerJsonRpcMessage plainAnnotationLeaves.leaves.payloads :=
  .response ⟨.number 1, .callToolResult ⟨[c], some false⟩⟩

/-- A text that is annotated for the user, with a priority. -/
def annotatedText : Content plainAnnotationLeaves :=
  ⟨.text ⟨"hello"⟩, some ⟨some [.user], some (some 0), some "2025-05-08T00:00:00Z"⟩⟩

/-- An answer with an annotated text comes back. One whose audio is annotated itself does not. -/
theorem mcp_messages_come_back_iff_toolAnswer :
    (ServerJsonRpcMessage.codec plainAnnotationLeaves.leaves).ReadsBackAt
        (toolAnswer annotatedText) ∧
      ¬ (ServerJsonRpcMessage.codec plainAnnotationLeaves.leaves).ReadsBackAt
        (toolAnswer (annotatedAudio none)) := by
  obtain ⟨-, hserver⟩ := mcp_messages_come_back_iff plainAnnotationLeaves
  constructor
  · refine (hserver _).mpr fun c hc => ?_
    obtain rfl := List.mem_singleton.mp hc
    refine ⟨rfl, fun annotations hannotations p hp => ?_⟩
    cases hannotations
    cases hp
    rfl
  · intro h
    have hwritable := (hserver _).mp h (annotatedAudio none) (List.mem_singleton_self _)
    cases hwritable.innerAnnotations

end Rmcp
