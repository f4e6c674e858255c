import Rmcp.Model.Message
import Rmcp.Support.HashMap

/-!
# Extractors of a tool call

The parameters of a tool are made from the context of the call, one after the other, and each
extractor hands the context on to the next. `Parameters` and `JsonObject` take the arguments out of
it, so what comes after them sees none.

The types that parameters are deserialized to are one type `D`, and the context has its own.

Results:
1. `extract_congr`: what an extractor gives depends on the members of the arguments only.
2. `chain_eq_values`: a chain where nothing is taken from another extractor.
3. `order_irrelevant_iff`: when the order of the extractors does not matter, and all argument
   extractors see what the caller sent.
4. `object_first_fails`: two orders of two extractors.
-/

namespace Rmcp

/-- `ErrorData::invalid_params`. -/
def ErrorData.invalidParams (message : String) : ErrorData := ⟨-32602, message, none⟩

namespace Handler

/-- A type that an extension is stored under. -/
structure RustType where
  typeId : Nat
  typeName : String
deriving DecidableEq

/-- The part of a request context that extractors read. -/
structure RequestContext (C D : Type) where
  ct : C
  extensions : HashMap Nat D

structure ToolCallContext (C S D : Type) where
  requestContext : RequestContext C D
  service : S
  name : String
  arguments : Option JsonObject

/-- The types with `FromToolCallContextPart`. -/
inductive Extractor (D : Type)
  | cancellationToken
  | callee
  | service
  | toolName
  | parameter (field : String) (fromValue : Value → Except String D)
  | parameters (fromValue : Value → Except String D)
  | jsonObject
  | extensions
  | extension (type : RustType)

inductive Extracted (C S D : Type)
  | cancellationToken (ct : C)
  | callee (service : S)
  | service (service : S)
  | toolName (name : String)
  | parameter (value : D)
  | parameters (value : D)
  | jsonObject (object : JsonObject)
  | extensions (extensions : HashMap Nat D)
  | extension (value : D)

namespace Extractor

variable {C S D : Type}

/-- `from_tool_call_context_part`. -/
def extract (e : Extractor D) (context : ToolCallContext C S D) :
    Except ErrorData (Extracted C S D × ToolCallContext C S D) :=
  match e with
  | .cancellationToken => .ok (.cancellationToken context.requestContext.ct, context)
  | .callee => .ok (.callee context.service, context)
  | .service => .ok (.service context.service, context)
  | .toolName => .ok (.toolName context.name, context)
  | .parameter field fromValue =>
    match context.arguments with
    | none => .error (.invalidParams ("missing parameter " ++ field))
    | some arguments =>
      match arguments.get field with
      | none => .error (.invalidParams ("missing parameter " ++ field))
      | some value =>
        match fromValue value with
        | .error error =>
          .error (.invalidParams ("failed to deserialize parameter " ++ field ++ ": " ++ error))
        | .ok value => .ok (.parameter value, context)
  | .parameters fromValue =>
    match fromValue (.object (context.arguments.getD [])) with
    | .error error => .error (.invalidParams ("failed to deserialize parameters: " ++ error))
    | .ok value => .ok (.parameters value, { context with arguments := none })
  | .jsonObject =>
    .ok (.jsonObject (context.arguments.getD []), { context with arguments := none })
  | .extensions => .ok (.extensions context.requestContext.extensions, context)
  | .extension type =>
    match context.requestContext.extensions.get type.typeId with
    | none => .error (.invalidParams ("missing extension " ++ type.typeName))
    | some value => .ok (.extension value, context)

/-- It reads the arguments of the call. -/
def IsArgument : Extractor D → Prop
  | .parameter _ _ | .parameters _ | .jsonObject => True
  | _ => False

/-- It takes the arguments out of the context, if it accepts them. -/
def Takes (arguments : JsonObject) : Extractor D → Prop
  | .parameters fromValue => ∃ value, fromValue (.object arguments) = .ok value
  | .jsonObject => True
  | _ => False

end Extractor

section Chain

variable {C S D ι : Type}

/-- The extractors of a handler, each with its parameter, in the order in which they run. -/
def chain : List (Extractor D × ι) → ToolCallContext C S D →
    Except ErrorData (List (Extracted C S D × ι))
  | [], _ => .ok []
  | (e, i) :: es, context => do
    let (value, context) ← e.extract context
    let values ← chain es context
    return (value, i) :: values

/-- The extractors that run, each with the context that it is given. -/
def runs : List (Extractor D × ι) → ToolCallContext C S D →
    List (Extractor D × ToolCallContext C S D)
  | [], _ => []
  | (e, _) :: es, context =>
    (e, context) ::
      match e.extract context with
      | .ok (_, context) => runs es context
      | .error _ => []

/-! ## One extractor -/

/-- The members of the arguments; a call without arguments has none. -/
def ToolCallContext.members (context : ToolCallContext C S D) : JsonObject :=
  context.arguments.getD []

/-- Contexts that differ at most in their arguments. -/
structure SameCall (c c' : ToolCallContext C S D) : Prop where
  requestContext : c.requestContext = c'.requestContext
  service : c.service = c'.service
  name : c.name = c'.name

variable {e : Extractor D} {c c' : ToolCallContext C S D}

/-- What an extractor gives, without the context it hands on. -/
def Extractor.value (e : Extractor D) (context : ToolCallContext C S D) :
    Except ErrorData (Extracted C S D) :=
  (e.extract context).map (·.1)

/-- No arguments are as good as none with the name of the parameter. -/
theorem value_parameter (field : String) (fromValue : Value → Except String D)
    (c : ToolCallContext C S D) :
    (Extractor.parameter field fromValue).value c =
      match c.members.get field with
      | none => .error (.invalidParams ("missing parameter " ++ field))
      | some value =>
        match fromValue value with
        | .error error =>
          .error (.invalidParams ("failed to deserialize parameter " ++ field ++ ": " ++ error))
        | .ok value => .ok (.parameter value) := by
  obtain ⟨request, service, name, arguments⟩ := c
  cases arguments with
  | none => rfl
  | some arguments =>
    simp only [Extractor.value, Extractor.extract, ToolCallContext.members, Option.getD_some]
    cases arguments.get field with
    | none => rfl
    | some value => cases hvalue : fromValue value <;> simp [hvalue, Except.map]

/-- Only the members of the arguments count. -/
theorem extract_congr (hsame : SameCall c c') (hmembers : e.IsArgument → c.members = c'.members) :
    e.value c = e.value c' := by
  obtain ⟨hrequest, hservice, hname⟩ := hsame
  cases e with
  | cancellationToken | callee | service | toolName | extensions =>
    simp only [Extractor.value, Extractor.extract, Except.map, hrequest, hservice, hname]
  | extension type =>
    simp only [Extractor.value, Extractor.extract, hrequest]
    cases c'.requestContext.extensions.get type.typeId <;> rfl
  | jsonObject =>
    have hmembers : c.arguments.getD [] = c'.arguments.getD [] := hmembers trivial
    simp only [Extractor.value, Extractor.extract, Except.map, hmembers]
  | parameters fromValue =>
    have hmembers : c.arguments.getD [] = c'.arguments.getD [] := hmembers trivial
    simp only [Extractor.value, Extractor.extract, hmembers]
    cases fromValue (.object (c'.arguments.getD [])) <;> rfl
  | parameter field fromValue => rw [value_parameter, value_parameter, hmembers trivial]

/-- The context that is handed on has the arguments still, or they have been taken. -/
theorem extract_context {value : Extracted C S D} (h : e.extract c = .ok (value, c')) :
    SameCall c' c ∧ (c'.members = c.members ∨ (e.Takes c.members ∧ c'.members = [])) := by
  cases e with
  | cancellationToken | callee | service | toolName | extensions =>
    cases h
    exact ⟨⟨rfl, rfl, rfl⟩, .inl rfl⟩
  | extension type =>
    simp only [Extractor.extract] at h
    split at h <;> cases h
    exact ⟨⟨rfl, rfl, rfl⟩, .inl rfl⟩
  | parameter field fromValue =>
    simp only [Extractor.extract] at h
    split at h
    · cases h
    · split at h
      · cases h
      · split at h <;> cases h
        exact ⟨⟨rfl, rfl, rfl⟩, .inl rfl⟩
  | parameters fromValue =>
    simp only [Extractor.extract] at h
    split at h
    · cases h
    · next hvalue =>
      cases h
      exact ⟨⟨rfl, rfl, rfl⟩, .inr ⟨⟨_, hvalue⟩, rfl⟩⟩
  | jsonObject =>
    cases h
    exact ⟨⟨rfl, rfl, rfl⟩, .inr ⟨trivial, rfl⟩⟩

theorem extract_of_takes (h : e.Takes c.members) :
    ∃ value, e.extract c = .ok (value, { c with arguments := none }) := by
  cases e with
  | parameters fromValue =>
    obtain ⟨value, hvalue⟩ := h
    have hvalue : fromValue (.object (c.arguments.getD [])) = .ok value := hvalue
    exact ⟨.parameters value, by simp only [Extractor.extract, hvalue]⟩
  | jsonObject => exact ⟨_, rfl⟩
  | _ => exact h.elim

/-! ## A chain of them -/

theorem chain_cons (a : Extractor D × ι) (es : List (Extractor D × ι))
    (context : ToolCallContext C S D) :
    chain (a :: es) context =
      match a.1.extract context with
      | .error error => .error error
      | .ok (value, context) => (chain es context).map ((value, a.2) :: ·) := by
  obtain ⟨e, i⟩ := a
  simp only [chain]
  cases e.extract context with
  | error error => rfl
  | ok result =>
    obtain ⟨value, context⟩ := result
    change (chain es context >>= fun values => pure ((value, i) :: values)) =
      (chain es context).map ((value, i) :: ·)
    cases chain es context <;> rfl

/-- Neither of two extractors takes the arguments from the other. -/
def Compatible (members : JsonObject) (e e' : Extractor D) : Prop :=
  ¬ (e.Takes members ∧ e'.IsArgument) ∧ ¬ (e'.Takes members ∧ e.IsArgument)

theorem Compatible.symm {members : JsonObject} {e e' : Extractor D}
    (h : Compatible members e e') : Compatible members e' e :=
  ⟨h.2, h.1⟩

/-- What the caller sent has not been taken from any of the extractors `es`. -/
structure Intact (call context : ToolCallContext C S D) (es : List (Extractor D × ι)) : Prop where
  sameCall : SameCall context call
  members_eq : ∀ a ∈ es, a.1.IsArgument → context.members = call.members
  compatible : call.members = [] ∨ es.Pairwise fun a b => Compatible call.members a.1 b.1

variable {call : ToolCallContext C S D} {a : Extractor D × ι} {es : List (Extractor D × ι)}

theorem Intact.value_eq (h : Intact call c (a :: es)) : a.1.value c = a.1.value call :=
  extract_congr h.sameCall (h.members_eq a List.mem_cons_self)

/-- An extractor leaves to the others what the caller sent. -/
theorem Intact.step (h : Intact call c (a :: es)) {value : Extracted C S D}
    (hextract : a.1.extract c = .ok (value, c')) : Intact call c' es := by
  obtain ⟨hcall, hmembers⟩ := extract_context hextract
  have hsame : SameCall c' call :=
    ⟨hcall.requestContext.trans h.sameCall.requestContext, hcall.service.trans h.sameCall.service,
      hcall.name.trans h.sameCall.name⟩
  refine ⟨hsame, fun b hb harg => ?_, h.compatible.imp_right fun h => (List.pairwise_cons.mp h).2⟩
  have hbefore := h.members_eq b (List.mem_cons_of_mem _ hb) harg
  rcases hmembers with hkept | ⟨htakes, hnone⟩
  · exact hkept.trans hbefore
  · rw [hbefore] at htakes
    rcases h.compatible with hempty | hpairwise
    · exact hnone.trans hempty.symm
    · exact absurd ⟨htakes, harg⟩ ((List.pairwise_cons.mp hpairwise).1 b hb).1

/-- A chain gives what each extractor gives of the call alone. -/
theorem chain_eq_values (h : Intact call c es) :
    chain es c = es.mapM fun a => (a.1.value call).map (·, a.2) := by
  induction es generalizing c with
  | nil => rfl
  | cons a es ih =>
    rw [chain_cons, List.mapM_cons, ← h.value_eq, Extractor.value]
    cases hextract : a.1.extract c with
    | error error => rfl
    | ok result =>
      obtain ⟨value, c'⟩ := result
      simp only [ih (h.step hextract)]
      change _ = (es.mapM _ >>= fun values => pure ((value, a.2) :: values))
      cases es.mapM fun a => (a.1.value call).map (·, a.2) <;> rfl

/-- So all argument extractors see what the caller sent. -/
theorem runs_see (h : Intact call c es) :
    ∀ run ∈ runs es c, run.1.IsArgument → run.2.members = call.members := by
  induction es generalizing c with
  | nil => exact List.forall_mem_nil _
  | cons a es ih =>
    refine List.forall_mem_cons.mpr ⟨h.members_eq a List.mem_cons_self, ?_⟩
    cases hextract : a.1.extract c with
    | error error => exact List.forall_mem_nil _
    | ok result => exact ih (h.step hextract)

end Chain

/-! ## All orders -/

section Order

variable {C S D : Type}

/-- The orders of the extractors, each labelled with its place. -/
def IsOrder (es : List (Extractor D)) (order : List (Extractor D × Nat)) : Prop :=
  order.Perm es.zipIdx

/-- Two orders fail both, or give every extractor the same value in both, and in each an argument
extractor that runs sees the arguments that the caller sent. -/
structure OrderIrrelevant (es : List (Extractor D)) (call : ToolCallContext C S D) : Prop where
  same : ∀ order order', IsOrder es order → IsOrder es order' →
    (∃ error error', chain order call = .error error ∧ chain order' call = .error error') ∨
    ∃ values values', chain order call = .ok values ∧ chain order' call = .ok values' ∧
      ∀ value place, (value, place) ∈ values ↔ (value, place) ∈ values'
  sees : ∀ order, IsOrder es order → ∀ run ∈ runs order call, run.1.IsArgument →
    run.2.members = call.members

/-- Either all succeed, or one fails. -/
theorem mapM_cases {α β : Type} (f : α → Except ErrorData β) (as : List α) :
    (∃ bs, as.mapM f = .ok bs ∧ (∀ a ∈ as, ∃ b, f a = .ok b) ∧
        ∀ b, b ∈ bs ↔ ∃ a ∈ as, f a = .ok b) ∨
      ∃ error, as.mapM f = .error error ∧ ∃ a ∈ as, ∃ error', f a = .error error' := by
  induction as with
  | nil => exact .inl ⟨[], rfl, List.forall_mem_nil _, by simp⟩
  | cons a as ih =>
    rw [List.mapM_cons]
    cases ha : f a with
    | error error => exact .inr ⟨error, rfl, a, List.mem_cons_self, error, ha⟩
    | ok b =>
      rcases ih with ⟨bs, hbs, hall, hmem⟩ | ⟨error, herror, a', ha', hfails⟩
      · refine .inl
          ⟨b :: bs, by rw [hbs]; rfl, List.forall_mem_cons.mpr ⟨⟨b, ha⟩, hall⟩, fun b' => ?_⟩
        have hhead : f a = .ok b' ↔ b' = b := by rw [ha, Except.ok.injEq, eq_comm]
        simp only [List.mem_cons, hmem, exists_eq_or_imp, hhead]
      · exact .inr ⟨error, by rw [herror]; rfl, a', List.mem_cons_of_mem _ ha', hfails⟩

theorem mapM_perm {α β : Type} {f : α → Except ErrorData β} {as as' : List α} (h : as.Perm as') :
    (∃ error error', as.mapM f = .error error ∧ as'.mapM f = .error error') ∨
      ∃ bs bs', as.mapM f = .ok bs ∧ as'.mapM f = .ok bs' ∧ ∀ b, b ∈ bs ↔ b ∈ bs' := by
  rcases mapM_cases f as with ⟨bs, hbs, hall, hmem⟩ | ⟨error, herror, a, ha, error₁, hfails⟩ <;>
    rcases mapM_cases f as' with
      ⟨bs', hbs', hall', hmem'⟩ | ⟨error', herror', a', ha', error₁', hfails'⟩
  · refine .inr ⟨bs, bs', hbs, hbs', fun b => ?_⟩
    rw [hmem, hmem']
    exact exists_congr fun a => and_congr_left' h.mem_iff
  · obtain ⟨b, hb⟩ := hall a' (h.mem_iff.mpr ha')
    cases hb.symm.trans hfails'
  · obtain ⟨b, hb⟩ := hall' a (h.mem_iff.mp ha)
    cases hb.symm.trans hfails
  · exact .inl ⟨error, error', herror, herror'⟩

theorem intact_of_order {es : List (Extractor D)} {call : ToolCallContext C S D}
    (h : call.members = [] ∨ es.Pairwise (Compatible call.members))
    {order : List (Extractor D × Nat)} (horder : IsOrder es order) : Intact call call order := by
  refine ⟨⟨rfl, rfl, rfl⟩, fun _ _ _ => rfl, h.imp_right fun hpairwise => ?_⟩
  rw [horder.pairwise_iff fun hab => hab.symm, ← List.pairwise_map (f := Prod.fst)]
  rwa [List.zipIdx_map_fst]

/-- One extractor takes the arguments, and another reads them after it. -/
theorem taken_of_order {es : List (Extractor D)} {call : ToolCallContext C S D}
    {a b : Extractor D × Nat} {rest : List (Extractor D × Nat)} (horder : IsOrder es (a :: b :: rest))
    (htakes : a.1.Takes call.members) (harg : b.1.IsArgument) (h : OrderIrrelevant es call) :
    call.members = [] := by
  obtain ⟨value, hextract⟩ := extract_of_takes htakes
  have hrun : (b.1, { call with arguments := none }) ∈ runs (a :: b :: rest) call := by
    simp only [runs, hextract]
    exact List.mem_cons_of_mem _ List.mem_cons_self
  exact (h.sees _ horder _ hrun harg).symm

/-- The order does not matter exactly when the caller sent no arguments, or no extractor takes them
where another one reads them. -/
theorem order_irrelevant_iff (es : List (Extractor D)) (call : ToolCallContext C S D) :
    OrderIrrelevant es call ↔
      call.members = [] ∨ es.Pairwise (Compatible call.members) := by
  constructor
  · intro h
    by_contra hnot
    rw [not_or, ← List.zipIdx_map_fst 0 es, List.pairwise_map,
      List.pairwise_iff_forall_sublist] at hnot
    obtain ⟨hmembers, hpairwise⟩ := hnot
    refine hpairwise fun {a b} hsub => ⟨fun htakes => ?_, fun htakes => ?_⟩
    · obtain ⟨rest, hperm⟩ := hsub.exists_perm_append
      exact hmembers (taken_of_order hperm.symm htakes.1 htakes.2 h)
    · obtain ⟨rest, hperm⟩ := hsub.exists_perm_append
      have hswap : IsOrder es (b :: a :: rest) := (List.Perm.swap a b rest).trans hperm.symm
      exact hmembers (taken_of_order hswap htakes.1 htakes.2 h)
  · intro h
    refine ⟨fun order order' horder horder' => ?_, fun order horder => ?_⟩
    · rw [chain_eq_values (intact_of_order h horder), chain_eq_values (intact_of_order h horder')]
      refine (mapM_perm (horder.trans horder'.symm)).imp_right ?_
      rintro ⟨values, values', hvalues, hvalues', hmem⟩
      exact ⟨values, values', hvalues, hvalues', fun value place => hmem (value, place)⟩
    · exact runs_see (intact_of_order h horder)

/-- The arguments as a whole, and one of them. -/
def objectAndParameter : List (Extractor Value) := [.jsonObject, .parameter "a" .ok]

/-- A call with the argument `a`. -/
def callWithArgument : ToolCallContext Unit Unit Value :=
  ⟨⟨(), .empty⟩, (), "tool", some [("a", .bool true)]⟩

/-- With the parameter first both get what they ask for, and with the object first the parameter is
missing. -/
theorem object_first_fails :
    chain [(Extractor.parameter "a" .ok, 1), (.jsonObject, 0)] callWithArgument =
      .ok [(.parameter (.bool true), 1), (.jsonObject [("a", .bool true)], 0)] ∧
    chain [(Extractor.jsonObject, 0), (.parameter "a" .ok, 1)] callWithArgument =
      .error (.invalidParams "missing parameter a") ∧
    ¬ OrderIrrelevant objectAndParameter callWithArgument := by
  have hlast : chain [(Extractor.parameter "a" .ok, 1), (.jsonObject, 0)] callWithArgument =
      .ok [(.parameter (.bool true), 1), (.jsonObject [("a", .bool true)], 0)] := rfl
  have hfirst : chain [(Extractor.jsonObject, 0), (.parameter "a" .ok, 1)] callWithArgument =
      .error (.invalidParams "missing parameter a") := rfl
  refine ⟨hlast, hfirst, fun h => ?_⟩
  rcases h.same _ _ (List.Perm.swap ..) (List.Perm.refl _) with
    ⟨error, error', herror, -⟩ | ⟨values, values', -, hvalues', -⟩
  · cases hlast.symm.trans herror
  · cases hfirst.symm.trans hvalues'

end Order

end Handler

end Rmcp
