import Mathlib.Data.Finset.Insert
import Mathlib.Data.List.Nodup
import Mathlib.Tactic.Common

/-!
# The parameters of a tool function

`tool_fn_item` goes through the arguments of a function from left to right. An argument may be
marked as a parameter of its own, or as the aggregate of all parameters; what the markers say is
collected in one place, and the arguments without a marker are extracted one by one.

Only an aggregate after a parameter is noticed. A parameter after an aggregate takes its place, and
so does an aggregate after another one; the argument that was there first is then bound nowhere.

Tokens are strings. What is collected also has the place of the argument that it came from, which
the source does not keep.

Results:
1. `collect_cannotMix_iff`: when the mix is noticed.
2. `collect_params`, `collect_aggregated`: what is left at the end.
3. `markers_kept_iff`: when no mix goes unnoticed and no marked argument is forgotten.
4. `aggregate_forgotten`: an aggregate before a parameter.
-/

namespace Rmcp

namespace Macros

inductive SynError
  | unknownAttribute
  | missingIdent
  | cannotMix
  /-- The arguments of a marker are not an identifier. -/
  | parse (text : String)
deriving DecidableEq

def SynError.message : SynError → String
  | .unknownAttribute => "unknown attribute"
  | .missingIdent => "input param must have an ident as name"
  | .cannotMix => "cannot mix aggregated and individual parameters"
  | .parse text => text

inductive ParamMarker
  | param
  | aggregated
deriving DecidableEq

/-- The constants are `PARAM_IDENT`, `AGGREGATED_IDENT` and `REQ_IDENT`. -/
def ParamMarker.parse (args : Except String String) : Except SynError ParamMarker :=
  match args with
  | .error text => .error (.parse text)
  | .ok ident =>
    if ident = "param" then .ok .param
    else if ident = "aggr" ∨ ident = "req" then .ok .aggregated
    else .error .unknownAttribute

/-- An attribute of an argument. -/
inductive Attribute
  | tool (args : Except String String)
  | serde (tokens : String)
  | schemars (tokens : String)
  | other (tokens : String)

inductive Pat
  | ident (name : String)
  | other (tokens : String)
deriving DecidableEq

def Pat.ident? : Pat → Option String
  | .ident name => some name
  | .other _ => none

inductive FnArg
  | receiver (attrs : List Attribute) (ty : String)
  | typed (attrs : List Attribute) (pat : Pat) (ty : String)

/-! ## One argument -/

structure ToolFnParamAttrs where
  serdeMeta : List String
  schemarsMeta : List String
  ident : String
  rustType : String
deriving DecidableEq

inductive Caught
  | param (ident rustType : String)
  | aggregated (pat : Pat) (rustType : String)

/-- What has been read of the attributes of an argument, and its name if it has not been taken. -/
structure Scan where
  argIdent : Option String
  caught : Option Caught
  serdeMetas : List String
  schemarsMetas : List String
  attrs : List Attribute

def Scan.start (pat : Pat) : Scan := ⟨pat.ident?, none, [], [], []⟩

def Scan.attribute (pat : Pat) (ty : String) (s : Scan) (attr : Attribute) :
    Except SynError Scan :=
  match attr with
  | .tool args =>
    match ParamMarker.parse args with
    | .error e => .error e
    | .ok .param =>
      match s.argIdent with
      | none => .error .missingIdent
      | some ident => .ok { s with argIdent := none, caught := some (.param ident ty) }
    | .ok .aggregated => .ok { s with caught := some (.aggregated pat ty) }
  | .serde tokens => .ok { s with serdeMetas := s.serdeMetas ++ [tokens] }
  | .schemars tokens => .ok { s with schemarsMetas := s.schemarsMetas ++ [tokens] }
  | .other _ => .ok { s with attrs := s.attrs ++ [attr] }

def Scan.attributes (pat : Pat) (ty : String) (s : Scan) : List Attribute → Except SynError Scan
  | [] => .ok s
  | attr :: attrs => do
    let s ← s.attribute pat ty attr
    s.attributes pat ty attrs

/-! ## All arguments -/

inductive ToolParams
  | aggregated (place : Nat) (pat : Pat) (rustType : String)
  | params (attrs : List (Nat × ToolFnParamAttrs))
  | noParam
deriving DecidableEq

/-- The places of the arguments that it has. -/
def ToolParams.places : ToolParams → List Nat
  | .aggregated place _ _ => [place]
  | .params attrs => attrs.map (·.1)
  | .noParam => []

def ToolParams.isParams : ToolParams → Bool
  | .params _ => true
  | .aggregated .. | .noParam => false

def ToolParams.push (params : ToolParams) (place : Nat) (param : ToolFnParamAttrs) : ToolParams :=
  match params with
  | .params attrs => .params (attrs ++ [(place, param)])
  | _ => .params [(place, param)]

structure Collected where
  params : ToolParams
  unextractable : Finset Nat

def Collected.caught (c : Collected) (place : Nat) (s : Scan) : Except SynError Collected :=
  match s.caught with
  | some (.param ident rustType) =>
    .ok ⟨c.params.push place ⟨s.serdeMetas, s.schemarsMetas, ident, rustType⟩,
      insert place c.unextractable⟩
  | some (.aggregated pat rustType) =>
    if c.params.isParams then .error .cannotMix
    else .ok ⟨.aggregated place pat rustType, insert place c.unextractable⟩
  | none => .ok c

def Collected.argument (c : Collected) (place : Nat) : FnArg → Except SynError Collected
  | .receiver _ _ => .ok c
  | .typed attrs pat ty => do
    let s ← (Scan.start pat).attributes pat ty attrs
    c.caught place s

/-- The loop over the arguments, from the one at `place` on. -/
def collect (c : Collected) (place : Nat) : List FnArg → Except SynError Collected
  | [] => .ok c
  | arg :: args => do
    let c ← c.argument place arg
    collect c (place + 1) args

/-! ## The generated code -/

/-- A line of the generated function that binds arguments. -/
inductive Extraction
  | trivial (place : Nat) (arg : FnArg)
  | aggregated (place : Nat) (pat : Pat) (rustType : String)
  | params (attrs : List (Nat × ToolFnParamAttrs))

def Extraction.binds : Extraction → List Nat
  | .trivial place _ => [place]
  | .aggregated place _ _ => [place]
  | .params attrs => attrs.map (·.1)

/-- What is generated of the parameters: the input schema is made from `params`, and the arguments
that the function is called with are those of the signature. -/
structure ToolFn where
  params : ToolParams
  extraction : List Extraction
  call : List FnArg

def trivialArgs (unextractable : Finset Nat) (inputs : List FnArg) : List Extraction :=
  inputs.zipIdx.filterMap fun (arg, place) =>
    if place ∈ unextractable then none else some (.trivial place arg)

def processedArgs : ToolParams → List Extraction
  | .aggregated place pat rustType => [.aggregated place pat rustType]
  | .params attrs => [.params attrs]
  | .noParam => []

def toolFnItem (inputs : List FnArg) : Except SynError ToolFn := do
  let c ← collect ⟨.noParam, ∅⟩ 0 inputs
  return ⟨c.params, trivialArgs c.unextractable inputs ++ processedArgs c.params, inputs⟩

/-- The generated code binds the argument at `place`. -/
def ToolFn.Binds (f : ToolFn) (place : Nat) : Prop := ∃ line ∈ f.extraction, place ∈ line.binds

/-! ## The markers of an argument -/

def Attribute.marker? : Attribute → Option (Except SynError ParamMarker)
  | .tool args => some (ParamMarker.parse args)
  | .serde _ | .schemars _ | .other _ => none

def markersOf (attrs : List Attribute) : List (Except SynError ParamMarker) :=
  attrs.filterMap (·.marker?)

def FnArg.markers : FnArg → List (Except SynError ParamMarker)
  | .receiver attrs _ | .typed attrs _ _ => markersOf attrs

/-- All markers are known, and at most one is that of a parameter, which needs a name. -/
def Readable : Bool → List (Except SynError ParamMarker) → Prop
  | _, [] => True
  | _, .error _ :: _ => False
  | named, .ok .param :: markers => named = true ∧ Readable false markers
  | named, .ok .aggregated :: markers => Readable named markers

/-- The markers of a receiver are not looked at. -/
def FnArg.Accepted : FnArg → Prop
  | .receiver _ _ => True
  | .typed attrs pat _ => Readable pat.ident?.isSome (markersOf attrs)

def lastMarker (markers : List (Except SynError ParamMarker)) : Option ParamMarker :=
  (markers.filterMap (·.toOption)).getLast?

/-- What an argument is taken for: its last marker counts. -/
def FnArg.takenFor : FnArg → Option ParamMarker
  | .receiver _ _ => none
  | .typed attrs _ _ => lastMarker (markersOf attrs)

def Caught.marker : Caught → ParamMarker
  | .param _ _ => .param
  | .aggregated _ _ => .aggregated

theorem parse_ne_cannotMix {args : Except String String} {e : SynError}
    (h : ParamMarker.parse args = .error e) : e ≠ .cannotMix := by
  unfold ParamMarker.parse at h
  split at h
  · cases h
    simp
  · split at h
    · cases h
    · split at h
      · cases h
      · cases h
        simp

/-- The marker in front counts when none comes after it. -/
theorem lastMarker_cons (m : ParamMarker) (markers : List (Except SynError ParamMarker))
    (before : Option ParamMarker) :
    (lastMarker (.ok m :: markers)).or before = (lastMarker markers).or (some m) := by
  have hok : lastMarker (.ok m :: markers) = (m :: markers.filterMap (·.toOption)).getLast? := rfl
  rw [hok, lastMarker, List.getLast?_cons]
  cases (markers.filterMap (·.toOption)).getLast? <;> rfl

theorem markersOf_cons (attr : Attribute) (attrs : List Attribute) :
    markersOf (attr :: attrs) = attr.marker?.toList ++ markersOf attrs := by
  cases hmarker : attr.marker? <;> simp [markersOf, hmarker]

section Scan

variable {pat : Pat} {ty : String} {s : Scan} {attr : Attribute}

/-- What one attribute makes of what has been read. -/
inductive Scan.Reads (s : Scan) (attr : Attribute) : Except SynError Scan → Prop
  | skipped {s' : Scan} : attr.marker? = none → s'.argIdent = s.argIdent → s'.caught = s.caught →
      Reads s attr (.ok s')
  | rejected {e : SynError} : attr.marker? = some (.error e) → e ≠ .cannotMix →
      Reads s attr (.error e)
  | unnamed : attr.marker? = some (.ok .param) → s.argIdent = none →
      Reads s attr (.error .missingIdent)
  | param {s' : Scan} : attr.marker? = some (.ok .param) → s.argIdent.isSome = true →
      s'.argIdent = none → s'.caught.map Caught.marker = some .param → Reads s attr (.ok s')
  | aggregated {s' : Scan} : attr.marker? = some (.ok .aggregated) → s'.argIdent = s.argIdent →
      s'.caught.map Caught.marker = some .aggregated → Reads s attr (.ok s')

theorem Scan.reads_attribute (pat : Pat) (ty : String) (s : Scan) (attr : Attribute) :
    s.Reads attr (s.attribute pat ty attr) := by
  cases attr with
  | serde tokens | schemars tokens | other tokens => exact .skipped rfl rfl rfl
  | tool args =>
    simp only [Scan.attribute]
    cases hparse : ParamMarker.parse args with
    | error e => exact .rejected (congrArg some hparse) (parse_ne_cannotMix hparse)
    | ok m =>
      cases m with
      | param =>
        cases hident : s.argIdent with
        | none => exact .unnamed (congrArg some hparse) hident
        | some ident => exact .param (congrArg some hparse) (by simp [hident]) rfl rfl
      | aggregated => exact .aggregated (congrArg some hparse) rfl rfl

/-- The attributes of an argument are read up to the end, or to a marker that is not accepted. -/
theorem Scan.attributes_cases (pat : Pat) (ty : String) (s : Scan) (attrs : List Attribute) :
    (∃ s', s.attributes pat ty attrs = .ok s' ∧
      Readable s.argIdent.isSome (markersOf attrs) ∧
      s'.caught.map Caught.marker =
        (lastMarker (markersOf attrs)).or (s.caught.map Caught.marker)) ∨
    ∃ e, s.attributes pat ty attrs = .error e ∧ e ≠ .cannotMix ∧
      ¬ Readable s.argIdent.isSome (markersOf attrs) := by
  induction attrs generalizing s with
  | nil => exact .inl ⟨s, rfl, trivial, rfl⟩
  | cons attr attrs ih =>
    rw [markersOf_cons]
    have hreads := s.reads_attribute pat ty attr
    rw [Scan.attributes]
    generalize s.attribute pat ty attr = result at hreads
    cases hreads with
    | @skipped s₁ hmarker hident hcaught =>
      rw [hmarker, ← hident, ← hcaught]
      exact ih s₁
    | @rejected e hmarker hne =>
      rw [hmarker]
      exact .inr ⟨e, rfl, hne, fun h => h⟩
    | unnamed hmarker hident =>
      rw [hmarker, hident]
      exact .inr ⟨_, rfl, by simp, fun h => absurd h.1 (by simp)⟩
    | @param s₁ hmarker hnamed hident hcaught =>
      rw [hmarker]
      rcases ih s₁ with ⟨s', hrest, hreadable, hlast⟩ | ⟨e, hrest, hne, hnot⟩
      · rw [hident] at hreadable
        exact .inl ⟨s', hrest, ⟨hnamed, hreadable⟩,
          hlast.trans (hcaught ▸ (lastMarker_cons _ _ _).symm)⟩
      · rw [hident] at hnot
        exact .inr ⟨e, hrest, hne, fun h => hnot h.2⟩
    | @aggregated s₁ hmarker hident hcaught =>
      rw [hmarker]
      rcases ih s₁ with ⟨s', hrest, hreadable, hlast⟩ | ⟨e, hrest, hne, hnot⟩
      · rw [hident] at hreadable
        exact .inl ⟨s', hrest, hreadable, hlast.trans (hcaught ▸ (lastMarker_cons _ _ _).symm)⟩
      · exact .inr ⟨e, hrest, hne, fun h => hnot (hident ▸ h)⟩

end Scan

/-! ## What one argument adds -/

section Argument

variable {c : Collected} {arg : FnArg} {place : Nat}

variable (c place) in
theorem argument_rejected (h : ¬ arg.Accepted) :
    ∃ e, c.argument place arg = .error e ∧ e ≠ .cannotMix := by
  cases arg with
  | receiver attrs ty => exact absurd trivial h
  | typed attrs pat ty =>
    rcases (Scan.start pat).attributes_cases pat ty attrs with
      ⟨s', -, hreadable, -⟩ | ⟨e, hscan, hne, -⟩
    · exact absurd hreadable h
    · simp only [Collected.argument, hscan]
      exact ⟨e, rfl, hne⟩

/-- An accepted argument has been read to its end. -/
theorem argument_accepted (h : arg.Accepted) (c : Collected) (place : Nat) :
    (arg.takenFor = none ∧ c.argument place arg = .ok c) ∨
    (arg.takenFor = some .param ∧ ∃ param,
      c.argument place arg = .ok ⟨c.params.push place param, insert place c.unextractable⟩) ∨
    (arg.takenFor = some .aggregated ∧ ∃ pat rustType,
      c.argument place arg =
        if c.params.isParams then .error .cannotMix
        else .ok ⟨.aggregated place pat rustType, insert place c.unextractable⟩) := by
  cases arg with
  | receiver attrs ty => exact .inl ⟨rfl, rfl⟩
  | typed attrs pat ty =>
    rcases (Scan.start pat).attributes_cases pat ty attrs with
      ⟨s', hscan, -, hlast⟩ | ⟨e, -, -, hnot⟩
    · have htaken : (FnArg.typed attrs pat ty).takenFor = s'.caught.map Caught.marker := by
        rw [hlast]
        exact (Option.or_none).symm
      have hargument : c.argument place (.typed attrs pat ty) = c.caught place s' := by
        simp only [Collected.argument, hscan]
        rfl
      rw [htaken, hargument, Collected.caught]
      cases s'.caught with
      | none => exact .inl ⟨rfl, rfl⟩
      | some caught =>
        cases caught with
        | param ident rustType => exact .inr (.inl ⟨rfl, _, rfl⟩)
        | aggregated pat rustType => exact .inr (.inr ⟨rfl, pat, rustType, rfl⟩)
    · exact absurd h hnot

theorem isParams_push (params : ToolParams) (place : Nat) (param : ToolFnParamAttrs) :
    (params.push place param).isParams = true := by
  cases params <;> rfl

end Argument

/-! ## When the mix is noticed -/

/-- An aggregate comes after a parameter, and all arguments up to it are accepted. -/
def NoticesMix (inputs : List FnArg) : Prop :=
  ∃ before arg after, inputs = before ++ arg :: after ∧ (∀ a ∈ before, a.Accepted) ∧
    arg.Accepted ∧ arg.takenFor = some .aggregated ∧ ∃ a ∈ before, a.takenFor = some .param

/-- The same for the rest of the arguments; `seen` says whether there has been a parameter. -/
def Mixes : Bool → List FnArg → Prop
  | _, [] => False
  | seen, arg :: args =>
    arg.Accepted ∧ ((seen = true ∧ arg.takenFor = some .aggregated) ∨
      Mixes (seen || decide (arg.takenFor = some .param)) args)

theorem mixes_iff {seen : Bool} {args : List FnArg} :
    Mixes seen args ↔ ∃ before arg after, args = before ++ arg :: after ∧
      (∀ a ∈ before, a.Accepted) ∧ arg.Accepted ∧ arg.takenFor = some .aggregated ∧
      (seen = true ∨ ∃ a ∈ before, a.takenFor = some .param) := by
  induction args generalizing seen with
  | nil =>
    refine iff_of_false id ?_
    rintro ⟨before, arg, after, h, -⟩
    simp at h
  | cons arg args ih =>
    rw [Mixes, ih]
    constructor
    · rintro ⟨haccepted, ⟨hseen, htaken⟩ | ⟨before, a, after, rfl, hbefore, ha, htaken, hparam⟩⟩
      · exact ⟨[], arg, args, rfl, List.forall_mem_nil _, haccepted, htaken, .inl hseen⟩
      · refine ⟨arg :: before, a, after, rfl, List.forall_mem_cons.mpr ⟨haccepted, hbefore⟩, ha,
          htaken, ?_⟩
        simp only [Bool.or_eq_true, decide_eq_true_eq] at hparam
        rcases hparam with (hseen | harg) | ⟨b, hb, hparam⟩
        · exact .inl hseen
        · exact .inr ⟨arg, List.mem_cons_self, harg⟩
        · exact .inr ⟨b, List.mem_cons_of_mem _ hb, hparam⟩
    · rintro ⟨before, a, after, h, hbefore, ha, htaken, hparam⟩
      cases before with
      | nil =>
        cases h
        refine ⟨ha, .inl ⟨hparam.resolve_right ?_, htaken⟩⟩
        rintro ⟨b, hb, -⟩
        cases hb
      | cons b before =>
        cases h
        obtain ⟨hb, hbefore⟩ := List.forall_mem_cons.mp hbefore
        refine ⟨hb, .inr ⟨before, a, after, rfl, hbefore, ha, htaken, ?_⟩⟩
        simp only [Bool.or_eq_true, decide_eq_true_eq]
        rcases hparam with hseen | ⟨d, hd, hparam⟩
        · exact .inl (.inl hseen)
        · rcases List.mem_cons.mp hd with rfl | hd
          · exact .inl (.inr hparam)
          · exact .inr ⟨d, hd, hparam⟩

/-- The loop ends, notices the mix, or meets a marker that is not accepted. -/
inductive Outcome (seen : Bool) (args : List FnArg) : Except SynError Collected → Prop
  | ends {c : Collected} : (∀ a ∈ args, a.Accepted) → ¬ Mixes seen args → Outcome seen args (.ok c)
  | notices : Mixes seen args → Outcome seen args (.error .cannotMix)
  | rejects {e : SynError} {a : FnArg} : e ≠ .cannotMix → ¬ Mixes seen args → a ∈ args →
      ¬ a.Accepted → Outcome seen args (.error e)

/-- An accepted argument leaves it to the rest. -/
theorem Outcome.cons {seen seen' : Bool} {arg : FnArg} {args : List FnArg}
    {result : Except SynError Collected} (h : Outcome seen' args result) (harg : arg.Accepted)
    (hnot : ¬ (seen = true ∧ arg.takenFor = some .aggregated))
    (hseen : seen' = (seen || decide (arg.takenFor = some .param))) :
    Outcome seen (arg :: args) result := by
  have hmixes : Mixes seen (arg :: args) ↔ Mixes seen' args := by
    rw [Mixes, hseen]
    simp only [harg, hnot, true_and, false_or]
  cases h with
  | ends hall hnone =>
    exact .ends (List.forall_mem_cons.mpr ⟨harg, hall⟩) fun h => hnone (hmixes.mp h)
  | notices h => exact .notices (hmixes.mpr h)
  | rejects hne hnone hmem hrejected =>
    exact .rejects hne (fun h => hnone (hmixes.mp h)) (List.mem_cons_of_mem _ hmem) hrejected

theorem outcome_collect (c : Collected) (place : Nat) (args : List FnArg) :
    Outcome c.params.isParams args (collect c place args) := by
  induction args generalizing c place with
  | nil => exact .ends (List.forall_mem_nil _) id
  | cons arg args ih =>
    rw [collect]
    by_cases haccepted : arg.Accepted
    · rcases argument_accepted haccepted c place with
        ⟨htaken, hargument⟩ | ⟨htaken, param, hargument⟩ | ⟨htaken, pat, rustType, hargument⟩
      · rw [hargument]
        exact (ih c (place + 1)).cons haccepted (by simp [htaken]) (by simp [htaken])
      · rw [hargument]
        exact (ih _ (place + 1)).cons haccepted (by simp [htaken]) (by simp [htaken, isParams_push])
      · rw [hargument]
        by_cases hseen : c.params.isParams = true
        · rw [if_pos hseen]
          exact .notices ⟨haccepted, .inl ⟨hseen, htaken⟩⟩
        · rw [if_neg hseen]
          refine (ih _ (place + 1)).cons haccepted (fun h => hseen h.1) ?_
          rw [Bool.not_eq_true] at hseen
          rw [hseen, htaken]
          rfl
    · obtain ⟨e, hargument, hne⟩ := argument_rejected c place haccepted
      rw [hargument]
      exact .rejects hne (fun h => haccepted h.1) List.mem_cons_self haccepted

theorem collect_cannotMix_iff {c : Collected} {place : Nat} {args : List FnArg} :
    collect c place args = .error .cannotMix ↔ Mixes c.params.isParams args := by
  have houtcome := outcome_collect c place args
  generalize collect c place args = result at houtcome
  cases houtcome with
  | ends hall hnone => exact iff_of_false (by simp) hnone
  | notices h => exact iff_of_true rfl h
  | rejects hne hnone => exact iff_of_false (by simpa using hne) hnone

/-! ## What is left at the end -/

/-- The places of the arguments that are taken for `m`. -/
def placesOf (m : ParamMarker) (place : Nat) (args : List FnArg) : List Nat :=
  ((args.zipIdx place).filter fun a => a.1.takenFor = some m).map (·.2)

theorem placesOf_cons (m : ParamMarker) (place : Nat) (arg : FnArg) (args : List FnArg) :
    placesOf m place (arg :: args) =
      (if arg.takenFor = some m then [place] else []) ++ placesOf m (place + 1) args := by
  by_cases htaken : arg.takenFor = some m <;> simp [placesOf, htaken]

theorem mem_placesOf {m : ParamMarker} {args : List FnArg} {i : Nat} :
    i ∈ placesOf m 0 args ↔ ∃ arg, args[i]? = some arg ∧ arg.takenFor = some m := by
  simp only [placesOf, List.mem_map, List.mem_filter, decide_eq_true_eq]
  constructor
  · rintro ⟨⟨arg, j⟩, ⟨hmem, htaken⟩, rfl⟩
    exact ⟨arg, by simpa using List.mem_zipIdx_iff_getElem?.mp hmem, htaken⟩
  · rintro ⟨arg, hget, htaken⟩
    exact ⟨(arg, i), ⟨List.mem_zipIdx_iff_getElem?.mpr hget, htaken⟩, rfl⟩

theorem nodup_placesOf (m : ParamMarker) (place : Nat) (args : List FnArg) :
    (placesOf m place args).Nodup := by
  have hplaces : ((args.zipIdx place).map (·.2)).Nodup := by
    rw [List.zipIdx_map_snd]
    exact List.nodup_range'
  exact hplaces.sublist (List.filter_sublist.map _)

section Collect

variable {c c' : Collected} {place : Nat} {arg : FnArg} {args : List FnArg}

theorem collect_cons_ok (h : collect c place (arg :: args) = .ok c') :
    ∃ c₁, c.argument place arg = .ok c₁ ∧ collect c₁ (place + 1) args = .ok c' := by
  rw [collect] at h
  cases hargument : c.argument place arg with
  | error e =>
    rw [hargument] at h
    cases h
  | ok c₁ =>
    rw [hargument] at h
    exact ⟨c₁, rfl, h⟩

/-- What a loop that goes on has done with one argument. -/
theorem argument_ok {c₁ : Collected} (h : c.argument place arg = .ok c₁) :
    (arg.takenFor = none ∧ c₁ = c) ∨
    (arg.takenFor = some .param ∧ ∃ param,
      c₁ = ⟨c.params.push place param, insert place c.unextractable⟩) ∨
    (arg.takenFor = some .aggregated ∧ ∃ pat rustType,
      c₁ = ⟨.aggregated place pat rustType, insert place c.unextractable⟩) := by
  have haccepted : arg.Accepted := by
    by_contra hrejected
    obtain ⟨e, herror, -⟩ := argument_rejected c place hrejected
    rw [herror] at h
    cases h
  rcases argument_accepted haccepted c place with
    ⟨htaken, hargument⟩ | ⟨htaken, param, hargument⟩ | ⟨htaken, pat, rustType, hargument⟩
  · exact .inl ⟨htaken, Except.ok.inj (h.symm.trans hargument)⟩
  · exact .inr (.inl ⟨htaken, param, Except.ok.inj (h.symm.trans hargument)⟩)
  · rw [hargument] at h
    split at h
    · cases h
    · exact .inr (.inr ⟨htaken, pat, rustType, (Except.ok.inj h).symm⟩)

/-- Every argument that is taken for something is left out of the trivial ones. -/
theorem collect_unextractable (h : collect c place args = .ok c') (i : Nat) :
    i ∈ c'.unextractable ↔ i ∈ c.unextractable ∨ i ∈ placesOf .param place args ∨
      i ∈ placesOf .aggregated place args := by
  induction args generalizing c place with
  | nil =>
    cases h
    simp [placesOf]
  | cons arg args ih =>
    obtain ⟨c₁, hargument, hrest⟩ := collect_cons_ok h
    rw [ih hrest, placesOf_cons, placesOf_cons]
    rcases argument_ok hargument with
      ⟨htaken, rfl⟩ | ⟨htaken, param, rfl⟩ | ⟨htaken, pat, rustType, rfl⟩
    · simp [htaken]
    · simp [htaken, or_assoc, or_left_comm]
    · simp [htaken, or_assoc, or_left_comm]

/-- Without an aggregate all parameters are left. -/
theorem collect_params (h : collect c place args = .ok c')
    (hnone : ∀ a ∈ args, a.takenFor ≠ some .aggregated)
    (hc : c.params = .noParam ∨ c.params.isParams = true) :
    c'.params.places = c.params.places ++ placesOf .param place args := by
  induction args generalizing c place with
  | nil =>
    cases h
    simp [placesOf]
  | cons arg args ih =>
    obtain ⟨hnot, hnone⟩ := List.forall_mem_cons.mp hnone
    obtain ⟨c₁, hargument, hrest⟩ := collect_cons_ok h
    rw [placesOf_cons]
    rcases argument_ok hargument with
      ⟨htaken, rfl⟩ | ⟨htaken, param, rfl⟩ | ⟨htaken, pat, rustType, rfl⟩
    · simpa [htaken] using ih hrest hnone hc
    · rw [ih hrest hnone (.inr (isParams_push ..)), if_pos htaken, ← List.append_assoc]
      congr 1
      cases hparams : c.params with
      | params attrs => simp [ToolParams.push, ToolParams.places]
      | noParam => rfl
      | aggregated => simp [hparams, ToolParams.isParams] at hc
    · exact absurd htaken hnot

/-- Without a parameter the last aggregate is left. -/
theorem collect_aggregated (h : collect c place args = .ok c')
    (hnone : ∀ a ∈ args, a.takenFor ≠ some .param) (hc : c.params.places.length ≤ 1) :
    c'.params.places = (c.params.places ++ placesOf .aggregated place args).getLast?.toList := by
  induction args generalizing c place with
  | nil =>
    cases h
    rw [placesOf, List.zipIdx_nil, List.filter_nil, List.map_nil, List.append_nil]
    cases hplaces : c'.params.places with
    | nil => rfl
    | cons i places =>
      rw [hplaces, List.length_cons] at hc
      obtain rfl : places = [] := List.eq_nil_of_length_eq_zero (by omega)
      rfl
  | cons arg args ih =>
    obtain ⟨hnot, hnone⟩ := List.forall_mem_cons.mp hnone
    obtain ⟨c₁, hargument, hrest⟩ := collect_cons_ok h
    rw [placesOf_cons]
    rcases argument_ok hargument with
      ⟨htaken, rfl⟩ | ⟨htaken, param, rfl⟩ | ⟨htaken, pat, rustType, rfl⟩
    · simpa [htaken] using ih hrest hnone hc
    · exact absurd htaken hnot
    · rw [ih hrest hnone (Nat.le_refl 1), if_pos htaken]
      simp [ToolParams.places, List.getLast?_append, List.getLast?_cons]

end Collect

/-! ## No marked argument is forgotten -/

/-- Some argument has the marker `m`. -/
def HasMarker (m : ParamMarker) (inputs : List FnArg) : Prop :=
  ∃ arg ∈ inputs, .ok m ∈ arg.markers

/-- A mix of the two markers is an error, and what is generated binds every marked argument. -/
structure MarkersKept (inputs : List FnArg) : Prop where
  mix : HasMarker .param inputs → HasMarker .aggregated inputs →
    toolFnItem inputs = .error .cannotMix
  bound : ∀ f, toolFnItem inputs = .ok f → ∀ (i : Nat) (arg : FnArg), inputs[i]? = some arg →
    arg.markers ≠ [] → f.Binds i

/-- Where both markers occur, an aggregate comes after a parameter before anything is rejected;
where they do not, some argument is rejected, or there is at most one aggregate. -/
def MarkedInOrder (inputs : List FnArg) : Prop :=
  (HasMarker .param inputs → HasMarker .aggregated inputs → NoticesMix inputs) ∧
  (¬ (HasMarker .param inputs ∧ HasMarker .aggregated inputs) →
    (∃ arg ∈ inputs, ¬ arg.Accepted) ∨ (placesOf .aggregated 0 inputs).length ≤ 1)

theorem hasMarker_of_takenFor {arg : FnArg} {m : ParamMarker} (h : arg.takenFor = some m) :
    .ok m ∈ arg.markers := by
  cases arg with
  | receiver attrs ty => cases h
  | typed attrs pat ty =>
    obtain ⟨marker, hmem, hmarker⟩ := List.mem_filterMap.mp (List.mem_of_getLast? h)
    cases marker with
    | error e => cases hmarker
    | ok m' =>
      obtain rfl := Option.some.inj hmarker
      exact hmem

theorem toolFnItem_eq_ok {inputs : List FnArg} {f : ToolFn} (h : toolFnItem inputs = .ok f) :
    ∃ c, collect ⟨.noParam, ∅⟩ 0 inputs = .ok c ∧
      f = ⟨c.params, trivialArgs c.unextractable inputs ++ processedArgs c.params, inputs⟩ := by
  rw [toolFnItem] at h
  cases hcollect : collect ⟨.noParam, ∅⟩ 0 inputs with
  | error e =>
    rw [hcollect] at h
    cases h
  | ok c =>
    rw [hcollect] at h
    exact ⟨c, rfl, (Except.ok.inj h).symm⟩

theorem toolFnItem_eq_error {inputs : List FnArg} {e : SynError} :
    toolFnItem inputs = .error e ↔ collect ⟨.noParam, ∅⟩ 0 inputs = .error e := by
  rw [toolFnItem]
  cases collect ⟨.noParam, ∅⟩ 0 inputs with
  | error e' =>
    constructor <;>
      · intro h
        cases h
        rfl
  | ok c =>
    constructor <;>
      · intro h
        cases h

theorem processedArgs_binds (params : ToolParams) (i : Nat) :
    (∃ line ∈ processedArgs params, i ∈ line.binds) ↔ i ∈ params.places := by
  cases params <;> simp [processedArgs, Extraction.binds, ToolParams.places]

/-- An argument of the signature is bound as a trivial one, or from what was collected. -/
theorem binds_iff {c : Collected} {inputs : List FnArg} {i : Nat} (hi : i < inputs.length) :
    (⟨c.params, trivialArgs c.unextractable inputs ++ processedArgs c.params, inputs⟩ :
        ToolFn).Binds i ↔ i ∉ c.unextractable ∨ i ∈ c.params.places := by
  have htrivial : (∃ line ∈ trivialArgs c.unextractable inputs, i ∈ line.binds) ↔
      i ∉ c.unextractable := by
    simp only [trivialArgs, List.mem_filterMap]
    constructor
    · rintro ⟨line, ⟨⟨arg, j⟩, hmem, hline⟩, hbinds⟩
      split at hline
      · cases hline
      · next hnot =>
        cases hline
        obtain rfl := List.mem_singleton.mp hbinds
        exact hnot
    · intro hnot
      exact ⟨.trivial i inputs[i], ⟨(inputs[i], i),
        List.mem_zipIdx_iff_getElem?.mpr (List.getElem?_eq_getElem hi), if_neg hnot⟩,
        List.mem_singleton_self i⟩
  rw [← htrivial, ← processedArgs_binds]
  simp only [ToolFn.Binds, List.mem_append, or_and_right, exists_or]

theorem noticesMix_iff {inputs : List FnArg} :
    toolFnItem inputs = .error .cannotMix ↔ NoticesMix inputs := by
  rw [toolFnItem_eq_error, collect_cannotMix_iff, mixes_iff]
  simp [NoticesMix, ToolParams.isParams]

/-- A marked argument is bound exactly when what was collected still has it. -/
theorem binds_marked_iff {c : Collected} {inputs : List FnArg}
    (hcollect : collect ⟨.noParam, ∅⟩ 0 inputs = .ok c) {i : Nat} {m : ParamMarker}
    (hi : i ∈ placesOf m 0 inputs) :
    (⟨c.params, trivialArgs c.unextractable inputs ++ processedArgs c.params, inputs⟩ :
        ToolFn).Binds i ↔ i ∈ c.params.places := by
  obtain ⟨arg, hget, -⟩ := mem_placesOf.mp hi
  have hleft : i ∈ c.unextractable := by
    rw [collect_unextractable hcollect]
    cases m with
    | param => exact .inr (.inl hi)
    | aggregated => exact .inr (.inr hi)
  rw [binds_iff (List.getElem?_eq_some_iff.mp hget).1]
  exact or_iff_right (not_not_intro hleft)

/-- Arguments that are taken for nothing are trivial. -/
theorem binds_of_places {c : Collected} {inputs : List FnArg}
    (hcollect : collect ⟨.noParam, ∅⟩ 0 inputs = .ok c)
    (hplaces : ∀ m, ∀ i ∈ placesOf m 0 inputs, i ∈ c.params.places) {i : Nat} {arg : FnArg}
    (hget : inputs[i]? = some arg) :
    (⟨c.params, trivialArgs c.unextractable inputs ++ processedArgs c.params, inputs⟩ :
        ToolFn).Binds i := by
  rw [binds_iff (List.getElem?_eq_some_iff.mp hget).1, collect_unextractable hcollect]
  by_cases htaken : i ∈ placesOf .param 0 inputs ∨ i ∈ placesOf .aggregated 0 inputs
  · exact .inr (htaken.elim (hplaces _ i) (hplaces _ i))
  · exact .inl fun hleft => htaken (hleft.resolve_left (Finset.notMem_empty i))

theorem takenFor_ne_of_hasMarker {m : ParamMarker} {inputs : List FnArg}
    (h : ¬ HasMarker m inputs) : ∀ a ∈ inputs, a.takenFor ≠ some m :=
  fun a ha htaken => h ⟨a, ha, hasMarker_of_takenFor htaken⟩

theorem placesOf_eq_nil {m : ParamMarker} {inputs : List FnArg}
    (h : ∀ a ∈ inputs, a.takenFor ≠ some m) : placesOf m 0 inputs = [] := by
  refine List.eq_nil_iff_forall_not_mem.mpr fun i hi => ?_
  obtain ⟨arg, hget, htaken⟩ := mem_placesOf.mp hi
  exact h arg (List.mem_of_getElem? hget) htaken

/-- Without parameters the last aggregate is left. -/
theorem bound_iff_of_no_param {c : Collected} {inputs : List FnArg}
    (hcollect : collect ⟨.noParam, ∅⟩ 0 inputs = .ok c) (hnone : ¬ HasMarker .param inputs) :
    (∀ m, ∀ i ∈ placesOf m 0 inputs, i ∈ c.params.places) ↔
      (placesOf .aggregated 0 inputs).length ≤ 1 := by
  have hparam := placesOf_eq_nil (takenFor_ne_of_hasMarker hnone)
  have hlast : c.params.places = (placesOf .aggregated 0 inputs).getLast?.toList :=
    collect_aggregated hcollect (takenFor_ne_of_hasMarker hnone) (Nat.zero_le 1)
  have hnodup := nodup_placesOf .aggregated 0 inputs
  rw [hlast]
  constructor
  · intro hall
    match hplaces : placesOf .aggregated 0 inputs with
    | [] | [_] => simp
    | i :: j :: places =>
      have hfirst := hall .aggregated i (by rw [hplaces]; exact List.mem_cons_self)
      rw [hplaces, List.getLast?_cons_cons] at hfirst
      have hlater : i ∈ j :: places :=
        List.mem_of_getLast? (Option.mem_toList.mp hfirst)
      rw [hplaces] at hnodup
      exact absurd hlater (List.nodup_cons.mp hnodup).1
  · intro hle m i hi
    cases m with
    | param =>
      rw [hparam] at hi
      cases hi
    | aggregated =>
      match hplaces : placesOf .aggregated 0 inputs with
      | [] =>
        rw [hplaces] at hi
        cases hi
      | [j] =>
        rw [hplaces] at hi
        exact hi
      | _ :: _ :: _ =>
        rw [hplaces] at hle
        simp at hle

/-- Without aggregates all parameters are left. -/
theorem bound_of_no_aggregated {c : Collected} {inputs : List FnArg}
    (hcollect : collect ⟨.noParam, ∅⟩ 0 inputs = .ok c) (hnone : ¬ HasMarker .aggregated inputs) :
    ∀ m, ∀ i ∈ placesOf m 0 inputs, i ∈ c.params.places := by
  intro m i hi
  cases m with
  | param =>
    have hall : c.params.places = placesOf .param 0 inputs :=
      collect_params hcollect (takenFor_ne_of_hasMarker hnone) (.inl rfl)
    rw [hall]
    exact hi
  | aggregated =>
    rw [placesOf_eq_nil (takenFor_ne_of_hasMarker hnone)] at hi
    cases hi

/-- Markers of one kind only: all are bound exactly when there is at most one aggregate. -/
theorem bound_iff_of_one_kind {c : Collected} {inputs : List FnArg}
    (hcollect : collect ⟨.noParam, ∅⟩ 0 inputs = .ok c)
    (hkind : ¬ (HasMarker .param inputs ∧ HasMarker .aggregated inputs)) :
    (∀ m, ∀ i ∈ placesOf m 0 inputs, i ∈ c.params.places) ↔
      (placesOf .aggregated 0 inputs).length ≤ 1 := by
  rcases not_and_or.mp hkind with hnone | hnone
  · exact bound_iff_of_no_param hcollect hnone
  · refine iff_of_true (bound_of_no_aggregated hcollect hnone) ?_
    rw [placesOf_eq_nil (takenFor_ne_of_hasMarker hnone)]
    exact Nat.zero_le 1

/-- With markers of one kind, an error is about some argument by itself. -/
theorem rejected_of_error {inputs : List FnArg} {e : SynError}
    (hkind : ¬ (HasMarker .param inputs ∧ HasMarker .aggregated inputs))
    (hcollect : collect ⟨.noParam, ∅⟩ 0 inputs = .error e) : ∃ arg ∈ inputs, ¬ arg.Accepted := by
  have houtcome := outcome_collect ⟨.noParam, ∅⟩ 0 inputs
  rw [hcollect] at houtcome
  cases houtcome with
  | notices hmixes =>
    have hmix := noticesMix_iff.mp (toolFnItem_eq_error.mpr hcollect)
    obtain ⟨before, arg, after, rfl, -, -, htaken, a, ha, hparam⟩ := hmix
    exact absurd ⟨⟨a, List.mem_append_left _ ha, hasMarker_of_takenFor hparam⟩,
      ⟨arg, by simp, hasMarker_of_takenFor htaken⟩⟩ hkind
  | rejects hne hnone hmem hrejected => exact ⟨_, hmem, hrejected⟩

theorem accepted_of_collect {inputs : List FnArg} {c : Collected}
    (hcollect : collect ⟨.noParam, ∅⟩ 0 inputs = .ok c) : ∀ arg ∈ inputs, arg.Accepted := by
  have houtcome := outcome_collect ⟨.noParam, ∅⟩ 0 inputs
  rw [hcollect] at houtcome
  cases houtcome with
  | ends hall hnone => exact hall

/-- A mix of the markers is noticed, and no marked argument is forgotten, exactly when the marked
arguments are in order. -/
theorem markers_kept_iff (inputs : List FnArg) : MarkersKept inputs ↔ MarkedInOrder inputs := by
  by_cases hkind : HasMarker .param inputs ∧ HasMarker .aggregated inputs
  · constructor
    · intro h
      exact ⟨fun hparam haggregated => noticesMix_iff.mp (h.mix hparam haggregated),
        fun hnot => absurd hkind hnot⟩
    · intro h
      have herror := noticesMix_iff.mpr (h.1 hkind.1 hkind.2)
      refine ⟨fun _ _ => herror, fun f hf => ?_⟩
      rw [herror] at hf
      cases hf
  · constructor
    · intro h
      refine ⟨fun hparam haggregated => absurd ⟨hparam, haggregated⟩ hkind, fun _ => ?_⟩
      cases hcollect : collect ⟨.noParam, ∅⟩ 0 inputs with
      | ok c =>
        right
        rw [← bound_iff_of_one_kind hcollect hkind]
        intro m i hi
        obtain ⟨arg, hget, htaken⟩ := mem_placesOf.mp hi
        have hmarked : arg.markers ≠ [] := List.ne_nil_of_mem (hasMarker_of_takenFor htaken)
        rw [← binds_marked_iff hcollect hi]
        refine h.bound _ ?_ i arg hget hmarked
        rw [toolFnItem, hcollect]
        rfl
      | error e => exact .inl (rejected_of_error hkind hcollect)
    · intro h
      refine ⟨fun hparam haggregated => absurd ⟨hparam, haggregated⟩ hkind,
        fun f hf i arg hget _ => ?_⟩
      obtain ⟨c, hcollect, rfl⟩ := toolFnItem_eq_ok hf
      refine binds_of_places hcollect ((bound_iff_of_one_kind hcollect hkind).mpr ?_) hget
      refine (h.2 hkind).resolve_left ?_
      rintro ⟨a, ha, hrejected⟩
      exact hrejected (accepted_of_collect hcollect a ha)

/-- `fn f(&self, #[tool(aggr)] req: Req, #[tool(param)] n: u32)`. -/
def aggregateFirst : List FnArg :=
  [.receiver [] "&Self", .typed [.tool (.ok "aggr")] (.ident "req") "Req",
    .typed [.tool (.ok "param")] (.ident "n") "u32"]

/-- The mix is not noticed, and nothing binds `req`. -/
theorem aggregate_forgotten :
    HasMarker .param aggregateFirst ∧ HasMarker .aggregated aggregateFirst ∧
    (∃ f, toolFnItem aggregateFirst = .ok f ∧ ¬ f.Binds 1) ∧ ¬ MarkersKept aggregateFirst := by
  have hparam : HasMarker .param aggregateFirst :=
    ⟨.typed [.tool (.ok "param")] (.ident "n") "u32", by simp [aggregateFirst],
      List.mem_singleton.mpr rfl⟩
  have haggregated : HasMarker .aggregated aggregateFirst :=
    ⟨.typed [.tool (.ok "aggr")] (.ident "req") "Req", by simp [aggregateFirst],
      List.mem_singleton.mpr rfl⟩
  have hitem : toolFnItem aggregateFirst = .ok
      ⟨.params [(2, ⟨[], [], "n", "u32"⟩)],
        [.trivial 0 (.receiver [] "&Self"), .params [(2, ⟨[], [], "n", "u32"⟩)]],
        aggregateFirst⟩ := rfl
  refine ⟨hparam, haggregated, ⟨_, hitem, ?_⟩, fun h => ?_⟩
  · rintro ⟨line, hline, hbinds⟩
    simp only [List.mem_cons, List.not_mem_nil, or_false] at hline
    rcases hline with rfl | rfl <;> simp [Extraction.binds] at hbinds
  · rw [h.mix hparam haggregated] at hitem
    cases hitem

end Macros

end Rmcp
