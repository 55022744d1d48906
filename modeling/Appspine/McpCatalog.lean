import Appspine.InsertionMap
import Appspine.McpRequestState

/-!
# The catalog of MCP tools

`McpToolRegistry`: the tools by name, where a tool has a second name under a configured prefix and
a later registration overrides an earlier one, and the list of all registrations, from which the
catalog for other apps is made.
-/
namespace Appspine.McpCatalog
open JsText InsertionMap Transitions Mcp

section Registry

/-- `/^[a-zA-Z0-9_-]+$/`. -/
def isToolPrefix (text : JsString) : Bool :=
  decide (text ≠ []) && text.all fun u =>
    decide ((unit 'a' ≤ u ∧ u ≤ unit 'z') ∨ (unit 'A' ≤ u ∧ u ≤ unit 'Z') ∨
      (unit '0' ≤ u ∧ u ≤ unit '9') ∨ u = unit '_' ∨ u = unit '-')

structure ToolPrefix where
  text : JsString
  valid : isToolPrefix text = true
  deriving DecidableEq

/-- What `MCP_TOOL_PREFIX` says, where that is not the reason for an error. -/
def getConfiguredToolPrefix (env : Option JsString) : Except JsString (Option ToolPrefix) :=
  match env with
  | none => .ok none
  | some [] => .ok none
  | some (u :: us) =>
    if h : isToolPrefix (u :: us) = true then .ok (some ⟨u :: us, h⟩)
    else .error (js "MCP_TOOL_PREFIX=\"" ++ u :: us ++
      js "\" is invalid — must match /^[a-zA-Z0-9_-]+$/ (dev_docs 023 §2.2).")

def readActions : List JsString := [js "read", js "list", js "get"]

def classifyToolAsReadOnly (requiredScopes : List JsString) : Bool :=
  decide (requiredScopes ≠ []) && requiredScopes.all fun scope =>
    (scopeParts scope).2.any fun action => decide (action ∈ readActions)

/-- A tool with its handler, which is compared by identity. -/
structure ToolDefinition (H : Type) where
  name : JsString
  description : JsString
  requiredScopes : List JsString
  handler : H
  deriving DecidableEq

structure McpCatalogEntry where
  name : JsString
  description : JsString
  requiredScopes : List JsString
  readOnlyHint : Bool
  deriving DecidableEq

structure McpToolRegistry (H : Type) where
  toolMap : Entries JsString (ToolDefinition H) := []
  logicalTools : List (ToolDefinition H) := []
  deriving DecidableEq

variable {H : Type}

/-- `${prefix}_${name}`. -/
def ToolPrefix.nameOf (toolPrefix : ToolPrefix) (name : JsString) : JsString :=
  toolPrefix.text ++ js "_" ++ name

def externalName (toolPrefix : Option ToolPrefix) (name : JsString) : JsString :=
  (toolPrefix.map fun p => p.nameOf name).getD name

variable (r : McpToolRegistry H)

def getTool (name : JsString) : Option (ToolDefinition H) := InsertionMap.get r.toolMap name

def registerSingle (tool : ToolDefinition H) : McpToolRegistry H :=
  { r with toolMap := InsertionMap.set r.toolMap tool.name tool }

def registerTool (toolPrefix : Option ToolPrefix) (tool : ToolDefinition H) : McpToolRegistry H :=
  let single := registerSingle r tool
  let pushed := { single with logicalTools := single.logicalTools ++ [tool] }
  match toolPrefix with
  | none => pushed
  | some p => registerSingle pushed { tool with name := p.nameOf tool.name }

def getCatalogSnapshot (toolPrefix : Option ToolPrefix) : List McpCatalogEntry :=
  r.logicalTools.map fun tool =>
    { name := externalName toolPrefix tool.name
      description := tool.description
      requiredScopes := tool.requiredScopes
      readOnlyHint := classifyToolAsReadOnly tool.requiredScopes }

def listTools (scopeMatcher : Option ScopeMatcher) (ctx : McpCallContext) :
    List (ToolDefinition H) :=
  (r.toolMap.map Prod.snd).filter fun tool =>
    tool.requiredScopes.all (matchesScope scopeMatcher ctx.scopes)

/-- A tool as `createServer` announces and runs it. -/
structure PublishedTool (H : Type) where
  name : JsString
  description : JsString
  readOnlyHint : Bool
  handler : H
  deriving DecidableEq

def createServer (scopeMatcher : Option ScopeMatcher) (ctx : McpCallContext) :
    List (PublishedTool H) :=
  (listTools r scopeMatcher ctx).map fun tool =>
    { name := tool.name
      description := tool.description
      readOnlyHint := classifyToolAsReadOnly tool.requiredScopes
      handler := tool.handler }

/-- One registration. -/
def step (toolPrefix : Option ToolPrefix) (r : McpToolRegistry H) (tool : ToolDefinition H) :
    Option (McpToolRegistry H) :=
  some (registerTool r toolPrefix tool)

end Registry

section Truth

variable {H : Type}

/-- The catalog lists each name once and says of it what a caller of that name gets, and a tool
runs alike under both of its names. -/
structure Truthful (toolPrefix : Option ToolPrefix) (r : McpToolRegistry H) : Prop where
  listedOnce : ((getCatalogSnapshot r toolPrefix).map (·.name)).Nodup
  described : ∀ entry ∈ getCatalogSnapshot r toolPrefix, ∃ tool,
    getTool r entry.name = some tool ∧ tool.description = entry.description ∧
      tool.requiredScopes = entry.requiredScopes
  published : ∀ entry ∈ getCatalogSnapshot r toolPrefix, ∀ scopeMatcher ctx,
    ∀ tool ∈ createServer r scopeMatcher ctx, tool.name = entry.name →
      tool.readOnlyHint = entry.readOnlyHint
  aliases : ∀ tool ∈ r.logicalTools, ∀ p ∈ toolPrefix, ∃ bare aliased,
    getTool r tool.name = some bare ∧ getTool r (p.nameOf tool.name) = some aliased ∧
      aliased.handler = bare.handler ∧ aliased.requiredScopes = bare.requiredScopes

/-- A later registration beside an earlier one: another name, and where the name of one is the
prefixed name of the other, the same handler and scopes. When the prefixed name came first, the
catalog also speaks of the description. -/
structure Compatible (toolPrefix : Option ToolPrefix) (earlier later : ToolDefinition H) :
    Prop where
  name : later.name ≠ earlier.name
  overAlias : ∀ p ∈ toolPrefix, later.name = p.nameOf earlier.name →
    later.handler = earlier.handler ∧ later.requiredScopes = earlier.requiredScopes ∧
      later.description = earlier.description
  underAlias : ∀ p ∈ toolPrefix, p.nameOf later.name = earlier.name →
    later.handler = earlier.handler ∧ later.requiredScopes = earlier.requiredScopes

end Truth

section Names

lemma nameOf_injective (p : ToolPrefix) : Function.Injective p.nameOf :=
  fun _ _ h => List.append_cancel_left h

lemma length_nameOf (p : ToolPrefix) (name : JsString) : name.length < (p.nameOf name).length := by
  have hone : (js "_").length = 1 := by decide
  simp only [ToolPrefix.nameOf, List.length_append, hone]
  omega

lemma nameOf_ne (p : ToolPrefix) (name : JsString) : p.nameOf name ≠ name := by
  intro h
  have hlength := length_nameOf p name
  rw [h] at hlength
  exact lt_irrefl _ hlength

lemma nameOf_nameOf_ne (p : ToolPrefix) (name : JsString) : p.nameOf (p.nameOf name) ≠ name := by
  intro h
  have houter := length_nameOf p (p.nameOf name)
  have hinner := length_nameOf p name
  rw [h] at houter
  omega

lemma externalName_injective (toolPrefix : Option ToolPrefix) :
    Function.Injective (externalName toolPrefix) := by
  cases toolPrefix with
  | none => exact fun _ _ h => h
  | some p => exact nameOf_injective p

end Names

section Lookup

variable {H : Type} {r : McpToolRegistry H} {toolPrefix : Option ToolPrefix}
  {tool : ToolDefinition H}

lemma logicalTools_registerTool :
    (registerTool r toolPrefix tool).logicalTools = r.logicalTools ++ [tool] := by
  cases toolPrefix <;> rfl

lemma getTool_registerTool_none (name : JsString) :
    getTool (registerTool r none tool) name =
      if name = tool.name then some tool else getTool r name := get_set _ _ _ _

lemma getTool_registerTool_some (p : ToolPrefix) (name : JsString) :
    getTool (registerTool r (some p) tool) name =
      if name = p.nameOf tool.name then some { tool with name := p.nameOf tool.name }
      else if name = tool.name then some tool else getTool r name := by
  simp only [getTool, registerTool, registerSingle, get_set]

end Lookup

section Invariant

variable {H : Type} {r : McpToolRegistry H} {toolPrefix : Option ToolPrefix}

/-- What is found under a name runs as the tool does. -/
def RunsAs (r : McpToolRegistry H) (name : JsString) (tool : ToolDefinition H) : Prop :=
  ∃ found, getTool r name = some found ∧ found.handler = tool.handler ∧
    found.requiredScopes = tool.requiredScopes

/-- What is found under a name runs as the tool does, and has its description. -/
def ReadsAs (r : McpToolRegistry H) (name : JsString) (tool : ToolDefinition H) : Prop :=
  ∃ found, getTool r name = some found ∧ found.handler = tool.handler ∧
    found.requiredScopes = tool.requiredScopes ∧ found.description = tool.description

/-- The map is keyed by the names of its tools, and each registered tool is found under its name
and, with its description, under the name of the catalog. -/
structure Settled (toolPrefix : Option ToolPrefix) (r : McpToolRegistry H) : Prop where
  keyed : ∀ e ∈ r.toolMap, e.2.name = e.1
  keys : (keys r.toolMap).Nodup
  names : (r.logicalTools.map (·.name)).Nodup
  bare : ∀ tool ∈ r.logicalTools, RunsAs r tool.name tool
  external : ∀ tool ∈ r.logicalTools, ReadsAs r (externalName toolPrefix tool.name) tool

lemma settled_empty : Settled toolPrefix ({} : McpToolRegistry H) where
  keyed := by simp
  keys := List.nodup_nil
  names := List.nodup_nil
  bare := by simp
  external := by simp

lemma Settled.described (h : Settled toolPrefix r) {entry : McpCatalogEntry}
    (hentry : entry ∈ getCatalogSnapshot r toolPrefix) :
    ∃ tool, getTool r entry.name = some tool ∧ tool.description = entry.description ∧
      tool.requiredScopes = entry.requiredScopes := by
  obtain ⟨tool, htool, rfl⟩ := List.mem_map.mp hentry
  obtain ⟨found, hfound, -, hscopes, hdescription⟩ := h.external tool htool
  exact ⟨found, hfound, hdescription, hscopes⟩

/-- What is published under a name is the tool found under it. -/
lemma Settled.getTool_of_published (h : Settled toolPrefix r) {scopeMatcher : Option ScopeMatcher}
    {ctx : McpCallContext} {tool : PublishedTool H}
    (htool : tool ∈ createServer r scopeMatcher ctx) :
    ∃ found, getTool r tool.name = some found ∧
      tool.readOnlyHint = classifyToolAsReadOnly found.requiredScopes := by
  obtain ⟨found, hfound, rfl⟩ := List.mem_map.mp htool
  obtain ⟨e, he, rfl⟩ := List.mem_map.mp (List.mem_filter.mp hfound).1
  refine ⟨e.2, ?_, rfl⟩
  have hmem : (e.2.name, e.2) ∈ r.toolMap := by rwa [h.keyed e he]
  exact get_of_mem h.keys hmem

lemma Settled.truthful (h : Settled toolPrefix r) : Truthful toolPrefix r where
  listedOnce := by
    have hnames : (getCatalogSnapshot r toolPrefix).map (·.name) =
        (r.logicalTools.map (·.name)).map (externalName toolPrefix) := by
      simp [getCatalogSnapshot]
    rw [hnames]
    exact h.names.map (externalName_injective toolPrefix)
  described entry hentry := h.described hentry
  published entry hentry scopeMatcher ctx tool htool hname := by
    obtain ⟨found, hfound, hhint⟩ := h.getTool_of_published htool
    obtain ⟨listed, hlisted, -, hscopes⟩ := h.described hentry
    rw [hname, hlisted] at hfound
    obtain rfl := Option.some.inj hfound
    obtain ⟨logical, -, rfl⟩ := List.mem_map.mp hentry
    rw [hhint, hscopes]
  aliases tool htool p hp := by
    obtain ⟨bare, hbare, hhandler, hscopes⟩ := h.bare tool htool
    obtain ⟨aliased, haliased, hhandler', hscopes', -⟩ := h.external tool htool
    rw [Option.mem_def.mp hp] at haliased
    exact ⟨bare, aliased, hbare, haliased, hhandler'.trans hhandler.symm,
      hscopes'.trans hscopes.symm⟩

end Invariant

section Steps

variable {H : Type} {r : McpToolRegistry H} {toolPrefix : Option ToolPrefix}
  {tool : ToolDefinition H}

/-- The registration beside all earlier ones. -/
def Fits (toolPrefix : Option ToolPrefix) (r : McpToolRegistry H) (tool : ToolDefinition H) :
    Prop :=
  ∀ earlier ∈ r.logicalTools, Compatible toolPrefix earlier tool

lemma keyed_registerSingle (hkeyed : ∀ e ∈ r.toolMap, e.2.name = e.1) :
    ∀ e ∈ (registerSingle r tool).toolMap, e.2.name = e.1 := by
  intro e he
  rcases mem_set he with rfl | he
  · rfl
  · exact hkeyed e he

lemma Settled.keyed_registerTool (h : Settled toolPrefix r) :
    (∀ e ∈ (registerTool r toolPrefix tool).toolMap, e.2.name = e.1) ∧
      (InsertionMap.keys (registerTool r toolPrefix tool).toolMap).Nodup := by
  have hsingle := @keyed_registerSingle H r tool h.keyed
  have hkeys := nodup_keys_set h.keys tool.name tool
  cases toolPrefix with
  | none => exact ⟨hsingle, hkeys⟩
  | some p =>
    exact ⟨keyed_registerSingle (r := { registerSingle r tool with
      logicalTools := r.logicalTools ++ [tool] }) hsingle, nodup_keys_set hkeys _ _⟩

/-- The new tool is found under both of its names. -/
lemma getTool_self : ReadsAs (registerTool r toolPrefix tool) tool.name tool ∧
    ReadsAs (registerTool r toolPrefix tool) (externalName toolPrefix tool.name) tool := by
  cases toolPrefix with
  | none =>
    have hself : ReadsAs (registerTool r none tool) tool.name tool :=
      ⟨tool, by simp [getTool_registerTool_none], rfl, rfl, rfl⟩
    exact ⟨hself, hself⟩
  | some p =>
    have hne : tool.name ≠ p.nameOf tool.name := (nameOf_ne p tool.name).symm
    refine ⟨⟨tool, by simp [getTool_registerTool_some, hne], rfl, rfl, rfl⟩,
      ⟨{ tool with name := p.nameOf tool.name }, ?_, rfl, rfl, rfl⟩⟩
    simp [getTool_registerTool_some, externalName]

lemma Settled.bare_registerTool (h : Settled toolPrefix r) (hfits : Fits toolPrefix r tool)
    {earlier : ToolDefinition H} (hmem : earlier ∈ r.logicalTools) :
    RunsAs (registerTool r toolPrefix tool) earlier.name earlier := by
  have hcompatible := hfits earlier hmem
  obtain ⟨found, hfound, hruns⟩ := h.bare earlier hmem
  cases toolPrefix with
  | none =>
    refine ⟨found, ?_, hruns⟩
    rw [getTool_registerTool_none, if_neg hcompatible.name.symm, hfound]
  | some p =>
    by_cases hunder : p.nameOf tool.name = earlier.name
    · refine ⟨{ tool with name := p.nameOf tool.name }, ?_, hcompatible.underAlias p rfl hunder⟩
      rw [getTool_registerTool_some, if_pos hunder.symm]
    · refine ⟨found, ?_, hruns⟩
      rw [getTool_registerTool_some, if_neg (Ne.symm hunder), if_neg hcompatible.name.symm, hfound]

lemma Settled.external_registerTool (h : Settled toolPrefix r) (hfits : Fits toolPrefix r tool)
    {earlier : ToolDefinition H} (hmem : earlier ∈ r.logicalTools) :
    ReadsAs (registerTool r toolPrefix tool) (externalName toolPrefix earlier.name) earlier := by
  have hcompatible := hfits earlier hmem
  obtain ⟨found, hfound, hreads⟩ := h.external earlier hmem
  cases toolPrefix with
  | none =>
    refine ⟨found, ?_, hreads⟩
    have hne : externalName none earlier.name ≠ tool.name := hcompatible.name.symm
    rw [getTool_registerTool_none, if_neg hne, hfound]
  | some p =>
    have hne : externalName (some p) earlier.name ≠ p.nameOf tool.name :=
      fun heq => hcompatible.name (nameOf_injective p heq).symm
    by_cases hover : tool.name = p.nameOf earlier.name
    · refine ⟨tool, ?_, hcompatible.overAlias p rfl hover⟩
      have hover' : externalName (some p) earlier.name = tool.name := hover.symm
      rw [getTool_registerTool_some, if_neg hne, if_pos hover']
    · refine ⟨found, ?_, hreads⟩
      have hover' : externalName (some p) earlier.name ≠ tool.name := Ne.symm hover
      rw [getTool_registerTool_some, if_neg hne, if_neg hover', hfound]

lemma Settled.registerTool (h : Settled toolPrefix r) (hfits : Fits toolPrefix r tool) :
    Settled toolPrefix (registerTool r toolPrefix tool) where
  keyed := h.keyed_registerTool.1
  keys := h.keyed_registerTool.2
  names := by
    rw [logicalTools_registerTool, List.map_append]
    refine h.names.append (List.nodup_singleton _) ?_
    intro name hname hself
    obtain ⟨earlier, hmem, rfl⟩ := List.mem_map.mp hname
    exact (hfits earlier hmem).name (List.mem_singleton.mp hself).symm
  bare := by
    intro other hother
    rw [logicalTools_registerTool] at hother
    rcases List.mem_append.mp hother with hmem | hself
    · exact h.bare_registerTool hfits hmem
    · obtain rfl := List.mem_singleton.mp hself
      obtain ⟨found, hfound, hhandler, hscopes, -⟩ := (@getTool_self H r toolPrefix other).1
      exact ⟨found, hfound, hhandler, hscopes⟩
  external := by
    intro other hother
    rw [logicalTools_registerTool] at hother
    rcases List.mem_append.mp hother with hmem | hself
    · exact h.external_registerTool hfits hmem
    · obtain rfl := List.mem_singleton.mp hself
      exact getTool_self.2

/-- A registration after which the catalog still tells the truth fits all earlier ones. -/
lemma Settled.fits_of_truthful (h : Settled toolPrefix r)
    (htrue : Truthful toolPrefix (McpCatalog.registerTool r toolPrefix tool)) :
    Fits toolPrefix r tool := by
  intro earlier hmem
  have hlisted : earlier ∈ (McpCatalog.registerTool r toolPrefix tool).logicalTools := by
    rw [logicalTools_registerTool]
    exact List.mem_append_left _ hmem
  have hname : tool.name ≠ earlier.name := by
    intro heq
    have hnodup := htrue.listedOnce
    simp only [getCatalogSnapshot, logicalTools_registerTool, List.map_append, List.map_map,
      List.map_cons, List.map_nil] at hnodup
    exact (List.nodup_append.mp hnodup).2.2 _ (List.mem_map.mpr ⟨earlier, hmem, rfl⟩) _
      (List.mem_singleton.mpr rfl) (by simp [heq])
  refine ⟨hname, fun p hp hover => ?_, fun p hp hunder => ?_⟩
  · obtain rfl := Option.mem_def.mp hp
    have hne : p.nameOf earlier.name ≠ p.nameOf tool.name :=
      fun heq => hname (nameOf_injective p heq).symm
    have hover' : getTool (McpCatalog.registerTool r (some p) tool) (p.nameOf earlier.name) =
        some tool := by
      rw [getTool_registerTool_some, if_neg hne, if_pos hover.symm]
    have hbare : getTool (McpCatalog.registerTool r (some p) tool) earlier.name =
        getTool r earlier.name := by
      have hne' : earlier.name ≠ p.nameOf tool.name := by
        rw [hover]
        exact (nameOf_nameOf_ne p earlier.name).symm
      rw [getTool_registerTool_some, if_neg hne', if_neg hname.symm]
    obtain ⟨found, hfound, hhandler, -⟩ := h.bare earlier hmem
    obtain ⟨bare, aliased, hbare', haliased, hsame, -⟩ := htrue.aliases earlier hlisted p rfl
    obtain ⟨listed, hlisted', hdescription, hscopes⟩ := htrue.described _
      (List.mem_map.mpr ⟨earlier, hlisted, rfl⟩)
    rw [hbare, hfound] at hbare'
    rw [hover'] at haliased
    have hexternal : externalName (some p) earlier.name = p.nameOf earlier.name := rfl
    simp only [hexternal, hover'] at hlisted'
    obtain rfl := Option.some.inj hbare'
    obtain rfl := Option.some.inj haliased
    obtain rfl := Option.some.inj hlisted'
    exact ⟨hsame.trans hhandler, hscopes, hdescription⟩
  · obtain rfl := Option.mem_def.mp hp
    have hunder' : getTool (McpCatalog.registerTool r (some p) tool) earlier.name =
        some { tool with name := p.nameOf tool.name } := by
      rw [getTool_registerTool_some, if_pos hunder.symm]
    have hexternal : getTool (McpCatalog.registerTool r (some p) tool) (p.nameOf earlier.name) =
        getTool r (p.nameOf earlier.name) := by
      have hne : p.nameOf earlier.name ≠ p.nameOf tool.name :=
        fun heq => hname (nameOf_injective p heq).symm
      have hne' : p.nameOf earlier.name ≠ tool.name := by
        rw [← hunder]
        exact nameOf_nameOf_ne p tool.name
      rw [getTool_registerTool_some, if_neg hne, if_neg hne']
    obtain ⟨found, hfound, hhandler, hscopes, -⟩ := h.external earlier hmem
    obtain ⟨bare, aliased, hbare, haliased, hsame, hsame'⟩ := htrue.aliases earlier hlisted p rfl
    rw [hunder'] at hbare
    have hfound' : getTool r (p.nameOf earlier.name) = some found := hfound
    rw [hexternal, hfound'] at haliased
    obtain rfl := Option.some.inj hbare
    obtain rfl := Option.some.inj haliased
    exact ⟨hsame.symm.trans hhandler, hsame'.symm.trans hscopes⟩

/-- The conditions of the steps are those between earlier and later registrations. -/
lemma steps_fits_iff (tools : List (ToolDefinition H)) :
    Steps (step toolPrefix) (Fits toolPrefix) r tools ↔
      (∀ earlier ∈ r.logicalTools, ∀ tool ∈ tools, Compatible toolPrefix earlier tool) ∧
        tools.Pairwise (Compatible toolPrefix) := by
  induction tools generalizing r with
  | nil => simp [Steps]
  | cons tool tools ih =>
    have hstep : ∀ t, step toolPrefix r tool = some t ↔
        t = McpCatalog.registerTool r toolPrefix tool :=
      fun t => ⟨fun h => (Option.some.inj h).symm, fun h => h ▸ rfl⟩
    simp only [Steps, hstep, forall_eq, ih, logicalTools_registerTool, Fits,
      List.pairwise_cons, List.forall_mem_append, List.forall_mem_cons]
    constructor
    · rintro ⟨hfits, ⟨hold, hnew, -⟩, hpairs⟩
      exact ⟨fun earlier hmem => ⟨hfits earlier hmem, hold earlier hmem⟩, hnew, hpairs⟩
    · rintro ⟨hall, hnew, hpairs⟩
      exact ⟨fun earlier hmem => (hall earlier hmem).1,
        ⟨fun earlier hmem => (hall earlier hmem).2, hnew,
          fun _ hmem => absurd hmem List.not_mem_nil⟩, hpairs⟩

/-- The catalog tells the truth after every registration of a sequence if and only if no two of
the registrations are at odds with each other. -/
theorem catalog_truthful_iff (toolPrefix : Option ToolPrefix) (tools : List (ToolDefinition H)) :
    Throughout (step toolPrefix) (Truthful toolPrefix) {} tools ↔
      tools.Pairwise (Compatible toolPrefix) := by
  have hrun : ∃ t, run (step toolPrefix) ({} : McpToolRegistry H) tools = some t := by
    generalize ({} : McpToolRegistry H) = r
    induction tools generalizing r with
    | nil => exact ⟨r, rfl⟩
    | cons tool tools ih =>
      obtain ⟨t, ht⟩ := ih (McpCatalog.registerTool r toolPrefix tool)
      exact ⟨t, run_cons.mpr ⟨_, rfl, ht⟩⟩
  obtain ⟨t, ht⟩ := hrun
  have hsteps : Steps (step toolPrefix) (Fits toolPrefix) {} tools ↔
      Throughout (step toolPrefix) (Truthful toolPrefix) {} tools := by
    refine steps_iff_throughout (Q := Settled toolPrefix) ?_ ?_ ?_ settled_empty ht
    · intro r tool s h hfits hstep
      exact Option.some.inj hstep ▸ h.registerTool hfits
    · exact fun r h => h.truthful
    · intro r tool s h hstep htrue
      exact h.fits_of_truthful (Option.some.inj hstep ▸ htrue)
  rw [← hsteps, steps_fits_iff]
  simp

/-- A tool that is registered again stays in the catalog as it was before, beside the new one; and
a tool that takes the prefixed name of another one takes its calls, but not its catalog entry. -/
theorem catalog_of_overridden_tool :
    (let old : ToolDefinition ℕ := ⟨js "list_pages", js "Lists", [js "pages:read"], 0⟩
    let new : ToolDefinition ℕ := ⟨js "list_pages", js "Purges", [js "pages:delete"], 1⟩
    ¬ Truthful none (registerTool (registerTool {} none old) none new)) ∧
    (let bare : ToolDefinition ℕ := ⟨js "list_pages", js "Lists", [js "pages:read"], 0⟩
    let other : ToolDefinition ℕ := ⟨js "wiki_list_pages", js "Purges", [js "pages:delete"], 1⟩
    ¬ Truthful (some ⟨js "wiki", by decide⟩) (registerTool (registerTool {}
      (some ⟨js "wiki", by decide⟩) bare) (some ⟨js "wiki", by decide⟩) other)) := by
  refine ⟨fun h => ?_, fun h => ?_⟩
  · have hnodup := h.listedOnce
    revert hnodup
    decide +kernel
  · have hall := h.described
    simp only [List.forall_mem_cons, getCatalogSnapshot, registerTool, registerSingle,
      List.map_cons, List.nil_append, List.cons_append] at hall
    obtain ⟨⟨tool, htool, hdescription, -⟩, -⟩ := hall
    have hfound := congrArg (Option.map fun tool => tool.description) htool
    rw [Option.map_some, hdescription] at hfound
    revert hfound
    decide +kernel

end Steps

end Appspine.McpCatalog
