import Appspine.ConfigBoundary

/-!
# The inventory file

`appspine.plugins.json` as the CLI reads it: the structural check against the shipped schema,
then the rules a schema cannot express.
-/
namespace Appspine.Inventory
open JsText StableSort InsertionMap PluginManifest ConfigBoundary

/-- The on-disk shape, which may also name presets. -/
structure InventoryFile where
  presets : Option (List JsString)
  plugins : List PluginInventoryEntry

/-- What the schema validator says of a document. -/
structure SchemaError where
  message : Option JsString
  instancePath : JsString

def pluginIdOf (pluginRef : JsString) : JsString := afterLast (unit '/') pluginRef

/-- The instance key of an entry, by what its reference says. -/
def keyOf (entry : PluginInventoryEntry) : JsString :=
  instanceKey (pluginIdOf entry.plugin) entry.instanceId

section Paths

/-- A path segment: a leading number becomes an index. -/
def dottedSegment (segment : JsString) : JsString :=
  let digits := segment.takeWhile isDigitUnit
  if digits = [] then unit '.' :: segment
  else unit '[' :: (digits ++ unit ']' :: segment.drop digits.length)

/-- A JSON pointer as a dotted path below `plugins`. -/
def dottedPath (instancePath : JsString) : JsString :=
  js "plugins" ++
    match instancePath.splitOn (unit '/') with
    | [] => []
    | first :: segments => first ++ segments.flatMap dottedSegment

end Paths

section Semantics

def duplicateInstance (entry : PluginInventoryEntry) (first index : ℕ) : PluginDiagnostic :=
  diagnostic (js "duplicate-instance")
    (js "entries " ++ js (toString first) ++ js " and " ++ js (toString index) ++
      js " both resolve to instance \"" ++ keyOf entry ++ js "\"")
    none (some entry.instanceId)
    (some (js "plugins[" ++ js (toString index) ++ js "].instanceId"))

def disabledOptional (entry : PluginInventoryEntry) (index : ℕ) : List PluginDiagnostic :=
  if entry.required = false ∧ entry.enabled = false then
    [{ diagnostic (js "disabled-optional-entry")
        (js "\"" ++ keyOf entry ++ js "\" is disabled, so \"required: false\" has no effect")
        none (some entry.instanceId)
        (some (js "plugins[" ++ js (toString index) ++ js "].required")) with severity := .info }]
  else []

/-- One entry, and the keys seen before it with the index of their first entry. -/
def semanticEntry (state : Entries JsString ℕ × List PluginDiagnostic)
    (e : PluginInventoryEntry × ℕ) : Entries JsString ℕ × List PluginDiagnostic :=
  match InsertionMap.get state.1 (keyOf e.1) with
  | some first =>
    (state.1, state.2 ++ duplicateInstance e.1 first e.2 :: disabledOptional e.1 e.2)
  | none =>
    (InsertionMap.set state.1 (keyOf e.1) e.2, state.2 ++ disabledOptional e.1 e.2)

def semanticDiagnostics (plugins : List PluginInventoryEntry) : List PluginDiagnostic :=
  (plugins.zipIdx.foldl semanticEntry ([], [])).2

end Semantics

def severityRank : DiagnosticSeverity → ℕ
  | .error => 0
  | .warning => 1
  | .info => 2

/-- Errors first, then by path, code and message. -/
def inventoryDiagnosticKey (d : PluginDiagnostic) : ℕ ×ₗ JsString :=
  toLex (severityRank d.severity, join (js " ") [d.path.getD [], d.code, d.message])

def sortInventoryDiagnostics (diagnostics : List PluginDiagnostic) : List PluginDiagnostic :=
  sortBy inventoryDiagnosticKey diagnostics

def schemaViolation (error : SchemaError) : PluginDiagnostic :=
  diagnostic (js "inventory-schema-violation") (error.message.getD (js "is invalid")) none none
    (some (dottedPath error.instancePath))

structure ParsedInventory where
  inventory : InventoryFile
  diagnostics : List PluginDiagnostic

/-- A candidate document with what the schema validator reported of it. -/
def parseInventory (schemaErrors : List SchemaError) (candidate : InventoryFile) :
    Except (List PluginDiagnostic) ParsedInventory :=
  let diagnostics := schemaErrors.map schemaViolation ++ semanticDiagnostics candidate.plugins
  if hasErrors diagnostics then .error (sortInventoryDiagnostics diagnostics)
  else
    .ok
      { inventory :=
          { presets := candidate.presets.filter (· ≠ [])
            plugins := candidate.plugins }
        diagnostics := sortInventoryDiagnostics diagnostics }

section Accepted

lemma hasErrors_disabledOptional (entry : PluginInventoryEntry) (index : ℕ) :
    hasErrors (disabledOptional entry index) = false := by
  unfold disabledOptional
  split_ifs <;> rfl

/-- While no error is reported, the keys seen are those of the entries, each once. -/
lemma semanticEntry_keys (es : List (PluginInventoryEntry × ℕ)) :
    let state := es.foldl semanticEntry ([], [])
    hasErrors state.2 = false →
      keys state.1 = es.map (fun e => keyOf e.1) ∧ (es.map (fun e => keyOf e.1)).Nodup := by
  induction es using List.reverseRecOn with
  | nil => exact fun _ => ⟨rfl, List.nodup_nil⟩
  | append_singleton es e ih =>
    simp only [List.foldl_append, List.foldl_cons, List.foldl_nil, List.map_append, List.map_cons,
      List.map_nil]
    generalize es.foldl semanticEntry ([], []) = state at ih ⊢
    intro hno
    cases hget : InsertionMap.get state.1 (keyOf e.1) with
    | some first =>
      simp [semanticEntry, hget, hasErrors, duplicateInstance, diagnostic] at hno
    | none =>
      simp only [semanticEntry, hget, hasErrors_append, hasErrors_disabledOptional,
        Bool.or_false] at hno ⊢
      obtain ⟨hkeys, hnodup⟩ := ih hno
      rw [get_eq_none, hkeys] at hget
      refine ⟨by rw [keys_set, hkeys, if_neg hget], ?_⟩
      exact hnodup.append (List.nodup_singleton _) (by simpa using hget)

/-- An accepted inventory is the candidate, and names every instance once. -/
lemma parseInventory_ok {schemaErrors : List SchemaError} {candidate : InventoryFile}
    {parsed : ParsedInventory} (h : parseInventory schemaErrors candidate = .ok parsed) :
    parsed.inventory.plugins = candidate.plugins ∧
      (parsed.inventory.plugins.map keyOf).Nodup ∧ hasErrors parsed.diagnostics = false := by
  simp only [parseInventory] at h
  split at h
  · cases h
  · rename_i hno
    obtain rfl := Except.ok.inj h
    simp only [Bool.not_eq_true] at hno
    refine ⟨rfl, ?_, ?_⟩
    · rw [hasErrors_append, Bool.or_eq_false_iff] at hno
      have hkeys := (semanticEntry_keys candidate.plugins.zipIdx hno.2).2
      have hfst : candidate.plugins.zipIdx.map (fun e => keyOf e.1) = candidate.plugins.map keyOf := by
        rw [← Function.comp_def keyOf Prod.fst, ← List.map_map, List.zipIdx_map_fst]
      rwa [hfst] at hkeys
    · rw [← hno]
      exact hasErrors_perm (sortBy_perm _ _)

end Accepted

end Appspine.Inventory
