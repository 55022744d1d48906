import Appspine.LoadState

/-!
# Writing the inventory back

What `add` and `remove` write is the canonical form of an inventory. Read back, it has to pass the
shipped schema and name every instance once.
-/
namespace Appspine.Inventory
open JsText StableSort InsertionMap PluginManifest ConfigBoundary

section Schema

def isLowerUnit (u : CodeUnit) : Bool := decide (97 ≤ u.val ∧ u.val ≤ 122)

def isLetterUnit (u : CodeUnit) : Bool := isLowerUnit u || decide (65 ≤ u.val ∧ u.val ≤ 90)

/-- `[a-z0-9-~][a-z0-9-._~]*`. -/
def isPackagePart : JsString → Bool
  | [] => false
  | u :: us =>
    (isLowerUnit u || isDigitUnit u || decide (u = unit '-' ∨ u = unit '~')) &&
      us.all (fun v => isLowerUnit v || isDigitUnit v ||
        decide (v = unit '-' ∨ v = unit '.' ∨ v = unit '_' ∨ v = unit '~'))

/-- `^(@[a-z0-9-~][a-z0-9-._~]*/)?[a-z0-9-~][a-z0-9-._~]*$`. -/
def isPluginRef (ref : JsString) : Bool :=
  if startsWith ref (js "@") then
    match (ref.drop 1).splitOn (unit '/') with
    | [scope, name] => isPackagePart scope && isPackagePart name
    | _ => false
  else isPackagePart ref

/-- `^[a-z0-9]([a-z0-9-]*[a-z0-9])?$`, of 64 characters at most. -/
def isInstanceId (instanceId : JsString) : Bool :=
  instanceId.all (fun u => isLowerUnit u || isDigitUnit u || decide (u = unit '-')) &&
    decide (instanceId ≠ [] ∧ instanceId.head? ≠ some (unit '-') ∧
      instanceId.getLast? ≠ some (unit '-') ∧ instanceId.length ≤ 64)

/-- `[a-zA-Z_$][a-zA-Z0-9_$]*`. -/
def isIdentifier : JsString → Bool
  | [] => false
  | u :: us =>
    (isLetterUnit u || decide (u = unit '_' ∨ u = unit '$')) &&
      us.all (fun v => isLetterUnit v || isDigitUnit v || decide (v = unit '_' ∨ v = unit '$'))

/-- Identifiers joined by dots. -/
def isConfigPath (configRef : JsString) : Bool := (configRef.splitOn (unit '.')).all isIdentifier

/-- `#/$defs/inventoryEntry`. -/
def isInventoryEntry (entry : PluginInventoryEntry) : Bool :=
  isPluginRef entry.plugin && isInstanceId entry.instanceId && entry.configRef.all isConfigPath

/-- `appspine.plugins.v1.json` accepts the document. -/
def matchesSchema (file : InventoryFile) : Bool :=
  (file.presets.getD []).all (· ≠ []) && decide (file.presets.getD []).Nodup &&
    file.plugins.all isInventoryEntry

/-- A JSON Schema validator for the shipped schema: it reports nothing exactly of what matches. -/
structure SchemaValidator where
  errors : InventoryFile → List SchemaError
  errors_eq_nil : ∀ file, errors file = [] ↔ matchesSchema file = true

/-- A validator with one message for everything. -/
def SchemaValidator.plain : SchemaValidator where
  errors file := if matchesSchema file then [] else [{ message := none, instancePath := [] }]
  errors_eq_nil file := by split_ifs with h <;> simp [h]

end Schema

section Serialize

/-- The document that `serializeInventory` prints. -/
def serializeInventory (inventory : InventoryFile) : InventoryFile :=
  { presets := (inventory.presets.filter (· ≠ [])).map sorted
    plugins := sortBy inventorySortKey inventory.plugins }

lemma hasErrors_semanticEntry {state : Entries JsString ℕ × List PluginDiagnostic}
    {e : PluginInventoryEntry × ℕ} (hnew : keyOf e.1 ∉ keys state.1) :
    hasErrors (semanticEntry state e).2 = hasErrors state.2 ∧
      (semanticEntry state e).1 = InsertionMap.set state.1 (keyOf e.1) e.2 := by
  simp only [semanticEntry, get_eq_none.mpr hnew, hasErrors_append, hasErrors_disabledOptional,
    Bool.or_false, and_self]

/-- Entries of different instances are in order. -/
lemma hasErrors_semanticDiagnostics {plugins : List PluginInventoryEntry}
    (h : (plugins.map keyOf).Nodup) : hasErrors (semanticDiagnostics plugins) = false := by
  have hrun : ∀ es : List (PluginInventoryEntry × ℕ), (es.map (fun e => keyOf e.1)).Nodup →
      keys (es.foldl semanticEntry ([], [])).1 = es.map (fun e => keyOf e.1) ∧
        hasErrors (es.foldl semanticEntry ([], [])).2 = false := by
    intro es
    induction es using List.reverseRecOn with
    | nil => exact fun _ => ⟨rfl, rfl⟩
    | append_singleton es e ih =>
      intro hnodup
      rw [List.map_append, List.nodup_append] at hnodup
      obtain ⟨hkeys, hclean⟩ := ih hnodup.1
      have hnew : keyOf e.1 ∉ keys (es.foldl semanticEntry ([], [])).1 := by
        rw [hkeys]
        exact fun hmem => hnodup.2.2 _ hmem _ (by simp) rfl
      obtain ⟨herrors, hset⟩ := hasErrors_semanticEntry hnew
      rw [List.foldl_append, List.foldl_cons, List.foldl_nil, herrors, hset, keys_set, if_neg hnew,
        hkeys, List.map_append]
      exact ⟨rfl, hclean⟩
  refine (hrun plugins.zipIdx ?_).2
  rwa [← Function.comp_def keyOf Prod.fst, ← List.map_map, List.zipIdx_map_fst]

lemma matchesSchema_of_parse {validator : SchemaValidator} {candidate : InventoryFile}
    {parsed : ParsedInventory} (h : parseInventory (validator.errors candidate) candidate = .ok parsed) :
    matchesSchema candidate = true ∧
      parsed.inventory = { presets := candidate.presets.filter (· ≠ []), plugins := candidate.plugins } := by
  simp only [parseInventory] at h
  split at h
  · cases h
  · rename_i hno
    obtain rfl := Except.ok.inj h
    simp only [hasErrors_append, Bool.or_eq_true, not_or, Bool.not_eq_true] at hno
    have hnil : (validator.errors candidate).map schemaViolation = [] :=
      (hasErrors_eq_false_iff (by simp [schemaViolation, diagnostic])).mp hno.1
    exact ⟨(validator.errors_eq_nil candidate).mp (List.map_eq_nil_iff.mp hnil), rfl⟩

lemma matchesSchema_serialize {inventory : InventoryFile} :
    matchesSchema (serializeInventory inventory) = matchesSchema inventory := by
  have hpresets : ((serializeInventory inventory).presets.getD []).Perm (inventory.presets.getD []) := by
    cases hp : inventory.presets with
    | none => simp [serializeInventory, hp]
    | some names =>
      cases names with
      | nil => simp [serializeInventory, hp, Option.filter_some]
      | cons name names =>
        simpa [serializeInventory, hp, Option.filter_some] using sorted_perm (name :: names)
  rw [Bool.eq_iff_iff]
  simp only [matchesSchema, Bool.and_eq_true, List.all_eq_true, decide_eq_true_eq,
    hpresets.mem_iff, hpresets.nodup_iff]
  have hplugins : ∀ e, e ∈ (serializeInventory inventory).plugins ↔ e ∈ inventory.plugins :=
    fun e => (sortBy_perm inventorySortKey inventory.plugins).mem_iff
  simp only [hplugins]

end Serialize

end Appspine.Inventory

namespace Appspine.Commands
open JsText StableSort InsertionMap JsonText PluginManifest Resolver Appspine.Composition
open Inventory hiding keyOf inventorySortKey duplicateInstance

variable {N : Type} [JsonNumber N] {sha256Hex : JsString → JsString}

section ReadBack

/-- The inventory file of the App was validated against the schema. -/
def Validated (validator : SchemaValidator) (app : AppRoot N sha256Hex) : Prop :=
  ∀ errors candidate, app.inventory = .document errors candidate → errors = validator.errors candidate

variable {validator : SchemaValidator} {app : AppRoot N sha256Hex} {next : InventoryFile}

/-- What a validated App declares matches the schema. -/
lemma matchesSchema_declared (hvalid : Validated validator app) {read : ParsedInventory}
    (hread : readInventory app = .ok read) : matchesSchema read.inventory = true := by
  unfold readInventory at hread
  split at hread
  · cases hread
  · cases hread
  · rename_i errors candidate hdocument
    rw [hvalid errors candidate hdocument] at hread
    obtain ⟨hschema, hinventory⟩ := matchesSchema_of_parse hread
    rw [hinventory]
    cases hp : candidate.presets with
    | none => simpa [matchesSchema, hp] using hschema
    | some names =>
      cases names with
      | nil => simpa [matchesSchema, hp, Option.filter_some] using hschema
      | cons name names => simpa [matchesSchema, hp, Option.filter_some] using hschema

end ReadBack

end Appspine.Commands
