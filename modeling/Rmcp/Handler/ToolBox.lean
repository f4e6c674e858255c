import Rmcp.Handler.Extractors
import Rmcp.Model.Nested
import Mathlib.Data.List.Induction
import Mathlib.Data.List.Nodup
import Mathlib.Data.List.Pairwise

/-!
# Tool boxes

The functions of a type that are tools, the boxes that `#[tool(tool_box)]` makes of its impl
blocks, and the two methods of a server handler that it derives. A box is a hash map from the
names of tools, and a type with parameters has two methods in place of a box.

The derived `list_tools` always reads the box with the name `tool_box`, and the derived
`call_tool` the one that the attribute names.

Results:
1. `toolBox_lists`: a box lists what it calls, also where names are repeated.
2. `lists_what_it_calls_iff`: when the two methods agree.
3. `other_box_not_listed`: a handler that names another box.
-/

namespace Rmcp

namespace Handler

/-- A function with `#[tool]`: what `[ident]_tool_attr` and `[ident]_tool_call` do. -/
structure ToolFunction (C S D R : Type) where
  ident : String
  attr : Tool
  call : ToolCallContext C S D → Except ErrorData R

variable {C S D R : Type}

abbrev ToolFunction.name (f : ToolFunction C S D R) : String := f.attr.name

/-! ## One box -/

/-- The item of a function is its attributes and its call. -/
abbrev ToolBox (C S D R : Type) := HashMap String (ToolFunction C S D R)

def ToolBox.add (box : ToolBox C S D R) (item : ToolFunction C S D R) : ToolBox C S D R :=
  box.insert item.name item

/-- The items in the order in which the map is iterated over. -/
def ToolBox.Lists (box : ToolBox C S D R) (items : List (ToolFunction C S D R)) : Prop :=
  ∃ entries, box.Entries entries ∧ items = entries.map (·.2)

/-- `tool_box!`. -/
def toolBox (tools : List (ToolFunction C S D R)) : ToolBox C S D R :=
  tools.foldl ToolBox.add .empty

/-- The answer of `list_tools`. -/
def listToolsResult (items : List (ToolFunction C S D R)) : PaginatedResult Tool :=
  ⟨none, items.map (·.attr)⟩

/-! ## The type and its handler -/

/-- An inherent impl block with `#[tool(tool_box)]`, or with `#[tool(tool_box = ident)]`. -/
structure ImplBlock (C S D R : Type) where
  generic : Bool
  toolBox : Option String
  tools : List (ToolFunction C S D R)

/-- The name of the function that is added to the block. With parameters there is a second one,
`list_tools_inner`. -/
def ImplBlock.ident (block : ImplBlock C S D R) : String :=
  if block.generic then "call_tool_inner" else block.toolBox.getD "tool_box"

/-- No two functions of a type have the same name. -/
structure ToolType (C S D R : Type) where
  blocks : List (ImplBlock C S D R)
  tools_nodup : ((blocks.flatMap (·.tools)).map (·.ident)).Nodup
  idents_nodup : (blocks.map (·.ident)).Nodup

namespace ToolType

/-- The tools of the box with the name `ident`. -/
def box (t : ToolType C S D R) (ident : String) : Option (List (ToolFunction C S D R)) :=
  (t.blocks.find? fun block => !block.generic && block.ident = ident).map (·.tools)

/-- The tools of `call_tool_inner` and `list_tools_inner`. -/
def inner (t : ToolType C S D R) : Option (List (ToolFunction C S D R)) :=
  (t.blocks.find? (·.generic)).map (·.tools)

end ToolType

/-- An impl of `ServerHandler` with `#[tool(tool_box)]`, or with `#[tool(tool_box = ident)]`; what
it refers to is there. -/
structure DerivedHandler (C S D R : Type) where
  type : ToolType C S D R
  generic : Bool
  toolBox : Option String
  compiles :
    if generic then type.inner.isSome
    else (type.box "tool_box").isSome ∧ (type.box (toolBox.getD "tool_box")).isSome

namespace DerivedHandler

variable (h : DerivedHandler C S D R)

def ident : String := h.toolBox.getD "tool_box"

/-- The tools of the box with the name `ident`. -/
def box (ident : String) : List (ToolFunction C S D R) := (h.type.box ident).getD []

def inner : List (ToolFunction C S D R) := h.type.inner.getD []

/-- The function that `call_tool` calls for a name: the first with that name, or the one in the
box. -/
def dispatch (name : String) : Option (ToolFunction C S D R) :=
  if h.generic then h.inner.find? (·.name = name)
  else (Handler.toolBox (h.box h.ident)).get name

def callTool (context : ToolCallContext C S D) : Except ErrorData R :=
  match h.dispatch context.name with
  | none => .error (.invalidParams "tool not found")
  | some item => item.call context

/-- The functions whose attributes `list_tools` returns, in this order. -/
def Lists (items : List (ToolFunction C S D R)) : Prop :=
  if h.generic then items = h.inner
  else (Handler.toolBox (h.box "tool_box")).Lists items

/-- A name is listed exactly when it is dispatched, it is listed once, and the function that is
dispatched is the one whose attributes are listed. -/
def ListsWhatItCalls : Prop :=
  ∀ items, h.Lists items →
    (∀ name, name ∈ (listToolsResult items).items.map (·.name) ↔ (h.dispatch name).isSome) ∧
    ((listToolsResult items).items.map (·.name)).Nodup ∧
    ∀ item ∈ items, h.dispatch item.name = some item

end DerivedHandler

/-! ## What is in a box -/

theorem names_listToolsResult (items : List (ToolFunction C S D R)) :
    (listToolsResult items).items.map (·.name) = items.map (·.name) := by
  simp [listToolsResult]

section Box

variable {tools items : List (ToolFunction C S D R)} {f : ToolFunction C S D R} {name : String}

theorem toolBox_concat (tools : List (ToolFunction C S D R)) (f : ToolFunction C S D R) :
    toolBox (tools ++ [f]) = (toolBox tools).add f := by
  rw [toolBox, List.foldl_append]
  rfl

/-- What is under a name is a tool with that name. -/
theorem get_toolBox (h : (toolBox tools).get name = some f) : f ∈ tools ∧ f.name = name := by
  induction tools using List.reverseRecOn with
  | nil => cases h
  | append_singleton tools g ih =>
    rw [toolBox_concat, ToolBox.add, HashMap.get_insert] at h
    split at h
    · next heq =>
      cases h
      exact ⟨List.mem_append_right _ (List.mem_singleton_self _), heq.symm⟩
    · obtain ⟨hmem, hname⟩ := ih h
      exact ⟨List.mem_append_left _ hmem, hname⟩

theorem get_toolBox_isSome : ((toolBox tools).get name).isSome ↔ ∃ f ∈ tools, f.name = name := by
  induction tools using List.reverseRecOn with
  | nil => simp [toolBox]
  | append_singleton tools g ih =>
    rw [toolBox_concat, ToolBox.add, HashMap.get_insert]
    by_cases heq : name = g.name
    · simp [heq]
    · have hne : g.name ≠ name := fun h => heq h.symm
      simp [heq, hne, ih]

theorem exists_lists (tools : List (ToolFunction C S D R)) : ∃ items, (toolBox tools).Lists items := by
  suffices hentries : ∃ entries, (toolBox tools).Entries entries by
    obtain ⟨entries, h⟩ := hentries
    exact ⟨_, entries, h, rfl⟩
  induction tools using List.reverseRecOn with
  | nil => exact ⟨[], HashMap.entries_empty⟩
  | append_singleton tools g ih =>
    obtain ⟨entries, h⟩ := ih
    rw [toolBox_concat]
    exact ⟨_, h.insert g.name g⟩

theorem mem_lists (h : (toolBox tools).Lists items) :
    f ∈ items ↔ (toolBox tools).get f.name = some f := by
  obtain ⟨entries, hentries, rfl⟩ := h
  rw [List.mem_map]
  constructor
  · rintro ⟨⟨name, g⟩, hmem, rfl⟩
    have hget := (hentries.mem_iff name g).mp hmem
    obtain ⟨-, rfl⟩ := get_toolBox hget
    exact hget
  · intro hget
    exact ⟨(f.name, f), (hentries.mem_iff _ _).mpr hget, rfl⟩

theorem nodup_lists (h : (toolBox tools).Lists items) : (items.map (·.name)).Nodup := by
  obtain ⟨entries, hentries, rfl⟩ := h
  have hkeys : entries.map (fun e => e.2.name) = entries.map (·.1) := by
    refine List.map_congr_left fun ⟨name, g⟩ hmem => ?_
    exact (get_toolBox ((hentries.mem_iff name g).mp hmem)).2
  rw [List.map_map]
  exact hkeys ▸ hentries.nodup_keys

/-- A box lists what it calls. -/
theorem toolBox_lists (h : (toolBox tools).Lists items) :
    (∀ name, name ∈ items.map (·.name) ↔ ((toolBox tools).get name).isSome) ∧
      (items.map (·.name)).Nodup ∧ ∀ f ∈ items, (toolBox tools).get f.name = some f := by
  refine ⟨fun name => ?_, nodup_lists h, fun f hf => (mem_lists h).mp hf⟩
  rw [List.mem_map, Option.isSome_iff_exists]
  constructor
  · rintro ⟨f, hf, rfl⟩
    exact ⟨f, (mem_lists h).mp hf⟩
  · rintro ⟨f, hget⟩
    obtain ⟨-, rfl⟩ := get_toolBox hget
    exact ⟨f, (mem_lists h).mpr hget, rfl⟩

end Box

/-! ## Two boxes -/

namespace ToolType

variable {t : ToolType C S D R} {tools tools' : List (ToolFunction C S D R)}
  {name name' : String} {f : ToolFunction C S D R}

theorem box_eq_some (h : t.box name = some tools) :
    ∃ block ∈ t.blocks, block.ident = name ∧ block.tools = tools := by
  obtain ⟨block, hfind, rfl⟩ := Option.map_eq_some_iff.mp h
  have hname := List.find?_some hfind
  simp only [Bool.and_eq_true, decide_eq_true_eq] at hname
  exact ⟨block, List.mem_of_find?_eq_some hfind, hname.2, rfl⟩

/-- No tool is in two boxes. -/
theorem name_eq_of_mem_box (h : t.box name = some tools) (h' : t.box name' = some tools')
    (hf : f ∈ tools) (hf' : f ∈ tools') : name = name' := by
  obtain ⟨block, hblock, rfl, rfl⟩ := box_eq_some h
  obtain ⟨block', hblock', rfl, rfl⟩ := box_eq_some h'
  by_contra hne
  have htools := t.tools_nodup
  rw [List.map_flatMap, List.nodup_flatMap] at htools
  have hsymm : Std.Symm (Function.onFun List.Disjoint fun block : ImplBlock C S D R =>
      block.tools.map (·.ident)) := ⟨fun _ _ h _ hmem hmem' => h hmem' hmem⟩
  have hdisjoint := htools.2.forall hblock hblock' fun heq => hne (congrArg _ heq)
  exact hdisjoint (List.mem_map_of_mem hf) (List.mem_map_of_mem hf')

end ToolType

namespace DerivedHandler

variable (h : DerivedHandler C S D R)

/-- With parameters, the names are different; without, the box that is called is the one that is
listed, or neither has a tool. -/
def NamesItsBox : Prop :=
  if h.generic then (h.inner.map (·.name)).Nodup
  else h.ident = "tool_box" ∨ (h.box "tool_box" = [] ∧ h.box h.ident = [])

theorem eq_of_mem_box {f : ToolFunction C S D R} {name name' : String} (hf : f ∈ h.box name)
    (hf' : f ∈ h.box name') : name = name' := by
  unfold DerivedHandler.box at hf hf'
  cases hbox : h.type.box name with
  | none =>
    rw [hbox] at hf
    cases hf
  | some tools =>
    cases hbox' : h.type.box name' with
    | none =>
      rw [hbox'] at hf'
      cases hf'
    | some tools' =>
      rw [hbox] at hf
      rw [hbox'] at hf'
      exact ToolType.name_eq_of_mem_box hbox hbox' hf hf'

theorem find?_of_nodup {tools : List (ToolFunction C S D R)} (hnodup : (tools.map (·.name)).Nodup)
    {f : ToolFunction C S D R} (hf : f ∈ tools) : tools.find? (·.name = f.name) = some f := by
  induction tools with
  | nil => cases hf
  | cons g tools ih =>
    obtain ⟨hnew, hnodup⟩ := List.nodup_cons.mp hnodup
    rcases List.mem_cons.mp hf with rfl | hf
    · simp
    · have hne : g.name ≠ f.name := fun heq => hnew (List.mem_map.mpr ⟨f, hf, heq.symm⟩)
      simp [hne, ih hnodup hf]

/-- The two methods of a type with parameters. -/
theorem lists_what_it_calls_generic (hgeneric : h.generic = true) :
    h.ListsWhatItCalls ↔ (h.inner.map (·.name)).Nodup := by
  simp only [ListsWhatItCalls, Lists, dispatch, if_pos hgeneric, forall_eq, names_listToolsResult]
  constructor
  · exact fun hlists => hlists.2.1
  · intro hnodup
    refine ⟨fun name => ?_, hnodup, fun f hf => find?_of_nodup hnodup hf⟩
    simp [List.find?_isSome]

/-- The two methods that read a box. -/
theorem lists_what_it_calls_box (hgeneric : ¬ h.generic = true) :
    h.ListsWhatItCalls ↔
      h.ident = "tool_box" ∨ (h.box "tool_box" = [] ∧ h.box h.ident = []) := by
  simp only [ListsWhatItCalls, Lists, dispatch, if_neg hgeneric, names_listToolsResult]
  constructor
  · intro hlists
    by_cases hident : h.ident = "tool_box"
    · exact .inl hident
    · obtain ⟨items, hitems⟩ := exists_lists (h.box "tool_box")
      obtain ⟨hnames, -, hsame⟩ := hlists items hitems
      -- what is listed is called, so it is in both boxes
      have hlisted : h.box "tool_box" = [] := by
        refine List.eq_nil_iff_forall_not_mem.mpr fun f hf => hident ?_
        obtain ⟨g, hg⟩ := Option.isSome_iff_exists.mp (get_toolBox_isSome.mpr ⟨f, hf, rfl⟩)
        obtain ⟨hmem, hname⟩ := get_toolBox hg
        have hcalled := (get_toolBox (hsame g ((mem_lists hitems).mpr (hname ▸ hg)))).1
        exact h.eq_of_mem_box hcalled hmem
      refine .inr ⟨hlisted, List.eq_nil_iff_forall_not_mem.mpr fun f hf => ?_⟩
      have hcalled := (hnames f.name).mpr (get_toolBox_isSome.mpr ⟨f, hf, rfl⟩)
      obtain ⟨g, hg, -⟩ := List.mem_map.mp hcalled
      have hmem := (get_toolBox ((mem_lists hitems).mp hg)).1
      rw [hlisted] at hmem
      cases hmem
  · rintro (hident | ⟨hlisted, hcalled⟩) items hitems
    · rw [hident]
      exact toolBox_lists hitems
    · rw [hlisted] at hitems
      rw [hcalled]
      exact toolBox_lists hitems

theorem lists_what_it_calls_iff : h.ListsWhatItCalls ↔ h.NamesItsBox := by
  by_cases hgeneric : h.generic = true
  · rw [lists_what_it_calls_generic h hgeneric, NamesItsBox, if_pos hgeneric]
  · rw [lists_what_it_calls_box h hgeneric, NamesItsBox, if_neg hgeneric]

end DerivedHandler

/-! ## A handler that names another box -/

section Example

/-- A tool that answers with its name. -/
def named (name : String) : ToolFunction Unit Unit Unit String :=
  ⟨name, ⟨name, none, [], none⟩, fun _ => .ok name⟩

/-- Two boxes, the second with the name `other`. -/
def calculator : ToolType Unit Unit Unit String where
  blocks := [⟨false, none, [named "sum"]⟩, ⟨false, some "other", [named "sub"]⟩]
  tools_nodup := by decide
  idents_nodup := by decide

/-- `#[tool(tool_box = other)] impl ServerHandler for Calculator`. -/
def otherHandler : DerivedHandler Unit Unit Unit String :=
  ⟨calculator, false, some "other", by decide⟩

/-- The tool that is listed is not found, and the one that is called is not listed. -/
theorem other_box_not_listed :
    otherHandler.Lists [named "sum"] ∧
    otherHandler.callTool ⟨⟨(), .empty⟩, (), "sum", none⟩ =
      .error (.invalidParams "tool not found") ∧
    otherHandler.callTool ⟨⟨(), .empty⟩, (), "sub", none⟩ = .ok "sub" ∧
    ¬ otherHandler.ListsWhatItCalls := by
  have hlists : otherHandler.Lists [named "sum"] :=
    ⟨[("sum", named "sum")], HashMap.entries_empty.insert "sum" (named "sum"), rfl⟩
  refine ⟨hlists, rfl, rfl, fun h => ?_⟩
  have hsum := (h _ hlists).2.2 (named "sum") (List.mem_singleton_self _)
  cases hsum

end Example

end Handler

end Rmcp
