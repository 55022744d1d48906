import Appspine.Generate

/-!
# Permission plans

The desired permissions of the installed plugins are reconciled against the permissions an App
has. The generated plan is for a fresh install, that is against no permissions at all, where an
alias has nothing to point at.
-/
namespace Appspine.Permissions
open JsText StableSort InsertionMap JsonText PluginManifest Resolver Commands Generate

variable {N : Type} [JsonNumber N] {sha256Hex : JsString → JsString}

def PERMISSION_ARTIFACT : JsString := GENERATED_DIR ++ js "/permissions.json"

section Reconcile

def isLowerAlnum (u : CodeUnit) : Bool :=
  decide ((97 ≤ u.val ∧ u.val ≤ 122) ∨ (48 ≤ u.val ∧ u.val ≤ 57))

/-- `[a-z0-9][a-z0-9-]*`. -/
def isPermissionSegment : JsString → Bool
  | [] => false
  | u :: us => isLowerAlnum u && us.all (fun v => isLowerAlnum v || decide (v = unit '-'))

/-- `PERMISSION_ID`: three segments separated by colons. -/
def isPermissionId (id : JsString) : Bool :=
  let segments := id.splitOn (unit ':')
  decide (segments.length = 3) && segments.all isPermissionSegment

inductive PermissionStatus where
  | active
  | retired
  deriving DecidableEq

structure PermissionRecord where
  id : JsString
  displayName : JsString
  status : PermissionStatus
  schemaGeneration : Option ℕ
  deriving DecidableEq

/-- The manifest schema leaves `displayName` optional. -/
structure DesiredPermission where
  id : JsString
  displayName : Option JsString
  status : Option PermissionStatus
  aliasOf : Option JsString
  frontendOnly : Option Bool
  deriving DecidableEq

inductive PermissionOp where
  | noOp (id : JsString)
  | add (id : JsString) (displayName : Option JsString)
  | updateDisplay (id shown : JsString) (wanted : Option JsString)
  | alias (id aliasOf : JsString) (displayName : Option JsString)
  | retire (id : JsString)
  deriving DecidableEq

def PermissionOp.op : PermissionOp → JsString
  | .noOp _ => js "no-op"
  | .add _ _ => js "add"
  | .updateDisplay _ _ _ => js "update-display"
  | .alias _ _ _ => js "alias"
  | .retire _ => js "retire"

def PermissionOp.id : PermissionOp → JsString
  | .noOp id => id
  | .add id _ => id
  | .updateDisplay id _ _ => id
  | .alias id _ _ => id
  | .retire id => id

/-- The members an operation prints after `op` and `id`. -/
def PermissionOp.details : PermissionOp → List (JsString × JsString)
  | .noOp _ => []
  | .add _ displayName => displayName.toList.map (fun d => (js "displayName", d))
  | .updateDisplay _ shown wanted => (js "from", shown) :: wanted.toList.map (fun d => (js "to", d))
  | .alias _ aliasOf displayName =>
    (js "aliasOf", aliasOf) :: displayName.toList.map (fun d => (js "displayName", d))
  | .retire _ => [(js "reason", js "not-in-desired-state")]

def PermissionOp.text (o : PermissionOp) : JsString :=
  braces (((js "op", o.op) :: (js "id", o.id) :: o.details).map (fun m => member m.1 (quote m.2)))

structure PermissionPlan where
  targetGeneration : ℕ
  ops : List PermissionOp
  digest : JsString

structure ReconcileResult where
  diagnostics : List PluginDiagnostic
  plan : Option PermissionPlan

def newestGeneration (currentState : List PermissionRecord) : ℕ :=
  currentState.foldl (fun highest entry => max highest (entry.schemaGeneration.getD 0)) 0

def downgradeDiagnostics (currentState : List PermissionRecord) (targetGeneration : ℕ) :
    List PluginDiagnostic :=
  if targetGeneration < newestGeneration currentState then
    [diagnostic (js "downgrade-blocked")
      (js "current state is at generation " ++ js (toString (newestGeneration currentState)) ++
        js " but this plan targets " ++ js (toString targetGeneration) ++
        js ". Applying an older plan over newer state would undo it")
      none none (some (js "permissions.schemaGeneration"))]
  else []

def permissionPath (id : JsString) : JsString := js "permissions." ++ id

def invalidPermissionId (entry : DesiredPermission) : List PluginDiagnostic :=
  if isPermissionId entry.id then []
  else
    [diagnostic (js "invalid-permission-id")
      (quoted entry.id ++ js " is not a namespaced permission ID (<plugin>:<resource>:<action>)")
      none none (some (permissionPath entry.id))]

def duplicatePermissionId (seen : List JsString) (entry : DesiredPermission) :
    List PluginDiagnostic :=
  if entry.id ∈ seen then
    [diagnostic (js "duplicate-permission-id")
      (quoted entry.id ++ js " is declared twice. The reconciler never picks one")
      none none (some (permissionPath entry.id))]
  else []

/-- The first loop over the desired state; `seen` are the ids of the entries before. -/
def idDiagnostics (seen : List JsString) : List DesiredPermission → List PluginDiagnostic
  | [] => []
  | entry :: rest =>
    invalidPermissionId entry ++ duplicatePermissionId seen entry ++
      idDiagnostics (seen ++ [entry.id]) rest

def currentById (currentState : List PermissionRecord) : Entries JsString PermissionRecord :=
  currentState.foldl (fun m entry => InsertionMap.set m entry.id entry) []

def aliasTargetNotFound (current : Entries JsString PermissionRecord) (entry : DesiredPermission)
    (aliasOf : JsString) : List PluginDiagnostic :=
  if InsertionMap.has current aliasOf then []
  else
    [diagnostic (js "alias-target-not-found")
      (quoted entry.id ++ js " aliases " ++ quoted aliasOf ++
        js ", which does not exist in the current state")
      none none (some (permissionPath entry.id ++ js ".aliasOf"))]

def selfAlias (entry : DesiredPermission) (aliasOf : JsString) : List PluginDiagnostic :=
  if aliasOf = entry.id then
    [diagnostic (js "self-alias") (quoted entry.id ++ js " cannot alias itself") none none
      (some (permissionPath entry.id ++ js ".aliasOf"))]
  else []

def aliasDiagnostics (current : Entries JsString PermissionRecord) (entry : DesiredPermission) :
    List PluginDiagnostic :=
  entry.aliasOf.elim []
    (fun aliasOf => aliasTargetNotFound current entry aliasOf ++ selfAlias entry aliasOf)

def permissionDiagnosticKey (d : PluginDiagnostic) : JsString :=
  join (js " ") [d.code, d.path.getD [], d.message]

/-- The operation for one desired permission. -/
def operationFor (current : Entries JsString PermissionRecord) (entry : DesiredPermission) :
    PermissionOp :=
  match entry.aliasOf with
  | some aliasOf => .alias entry.id aliasOf entry.displayName
  | none =>
    match InsertionMap.get current entry.id with
    | none => .add entry.id entry.displayName
    | some record =>
      if some record.displayName ≠ entry.displayName then
        .updateDisplay entry.id record.displayName entry.displayName
      else .noOp entry.id

/-- Permissions that left the desired state and were not aliased away. -/
def retirements (currentState : List PermissionRecord) (desiredState : List DesiredPermission) :
    List PermissionOp :=
  (currentState.filter (fun record =>
    record.id ∉ desiredState.map (·.id) ∧
      record.id ∉ (desiredState.filterMap (·.aliasOf)).filter (· ≠ []) ∧
      record.status ≠ .retired)).map (fun record => .retire record.id)

def planOps (currentState : List PermissionRecord) (desiredState : List DesiredPermission) :
    List PermissionOp :=
  sortBy (fun o => o.op ++ o.id)
    (desiredState.map (operationFor (currentById currentState)) ++
      retirements currentState desiredState)

def planDigest (sha256Hex : JsString → JsString) (targetGeneration : ℕ) (ops : List PermissionOp) :
    JsString :=
  hash sha256Hex (braces [member (js "targetGeneration") (js (toString targetGeneration)),
    member (js "ops") (brackets (ops.map (·.text)))])

def reconcileDiagnostics (currentState : List PermissionRecord)
    (desiredState : List DesiredPermission) (targetGeneration : ℕ) : List PluginDiagnostic :=
  downgradeDiagnostics currentState targetGeneration ++ idDiagnostics [] desiredState ++
    desiredState.flatMap (aliasDiagnostics (currentById currentState))

/-- No plan at all when anything is wrong with it. -/
def reconcilePermissions (sha256Hex : JsString → JsString) (currentState : List PermissionRecord)
    (desiredState : List DesiredPermission) (targetGeneration : ℕ) : ReconcileResult :=
  let diagnostics := reconcileDiagnostics currentState desiredState targetGeneration
  { diagnostics := sortBy permissionDiagnosticKey diagnostics
    plan :=
      if hasErrors diagnostics then none
      else
        some
          { targetGeneration := targetGeneration
            ops := planOps currentState desiredState
            digest := planDigest sha256Hex targetGeneration (planOps currentState desiredState) } }

end Reconcile

section Desired

def statusOf (text : JsString) : Option PermissionStatus :=
  if text = js "active" then some .active
  else if text = js "retired" then some .retired
  else none

/-- A definition in one of the two shapes the manifest schema has for it. A bare id is its own
display name. -/
def definitionOf : Json N → Option DesiredPermission
  | .str id =>
    some { id := id, displayName := some id, status := none, aliasOf := none, frontendOnly := none }
  | .obj members =>
    (textMember members (js "id")).map (fun id =>
      { id := id
        displayName := textMember members (js "displayName")
        status := (textMember members (js "status")).bind statusOf
        aliasOf := textMember members (js "aliasOf")
        frontendOnly := flagMember members (js "frontendOnly") })
  | _ => none

/-- `facets.permissions.definitions`. -/
def definitionsOf (manifest : PluginManifestV1 N) : List DesiredPermission :=
  match InsertionMap.get manifest.facets.rest (js "permissions") with
  | some (.obj facet) =>
    match InsertionMap.get facet (js "definitions") with
    | some (.arr items) => items.filterMap definitionOf
    | _ => []
  | _ => []

def inNamespace (manifest : PluginManifestV1 N) (entry : DesiredPermission) : Bool :=
  startsWith entry.id (manifest.id ++ js ":")

def outsideNamespace (manifest : PluginManifestV1 N) (entry : DesiredPermission) :
    PluginDiagnostic :=
  diagnostic (js "permission-outside-namespace")
    (quoted manifest.id ++ js " declares " ++ quoted entry.id ++
      js ", which is not in its own namespace")
    (some manifest.id) none (some (js "facets.permissions." ++ entry.id))

structure DesiredState where
  desired : List DesiredPermission
  diagnostics : List PluginDiagnostic

def desiredPermissionsFrom (input : GeneratorInput N sha256Hex) : DesiredState :=
  { desired := sortBy (·.id) (input.installed.flatMap (fun loaded =>
      (definitionsOf loaded.manifest).filter (inNamespace loaded.manifest)))
    diagnostics := input.installed.flatMap (fun loaded =>
      ((definitionsOf loaded.manifest).filter (fun entry => !inNamespace loaded.manifest entry)).map
        (outsideNamespace loaded.manifest)) }

/-- The generated document. -/
structure PermissionDocument where
  generatedBy : GeneratedBy
  sourceDigest : JsString
  planDigest : Option JsString
  desired : List DesiredPermission
  freshInstallPlan : List PermissionOp
  diagnostics : List (JsString × DiagnosticSeverity × JsString)

def generatePermissionPlan (input : GeneratorInput N sha256Hex) : PermissionDocument :=
  let desired := desiredPermissionsFrom input
  let result := reconcilePermissions sha256Hex [] desired.desired 1
  { generatedBy := input.generatedBy
    sourceDigest := sourceDigest input
    planDigest := result.plan.map (·.digest)
    desired := desired.desired
    freshInstallPlan := (result.plan.map (·.ops)).getD []
    diagnostics := (desired.diagnostics ++ result.diagnostics).map
      (fun d => (d.code, d.severity, d.message)) }

end Desired

section FreshInstall

/-- The codes of what is wrong with a declaration itself. -/
def DECLARATION_CODES : List JsString :=
  [js "permission-outside-namespace", js "invalid-permission-id", js "duplicate-permission-id"]

/-- Some operation brings the permission into being. -/
def Creates (ops : List PermissionOp) (id : JsString) : Prop :=
  ∃ o ∈ ops, o.id = id ∧ (o.op = js "add" ∨ o.op = js "alias")

instance (ops : List PermissionOp) (id : JsString) : Decidable (Creates ops id) :=
  inferInstanceAs (Decidable (∃ o ∈ ops, _))

lemma code_idDiagnostics {seen : List JsString} {desiredState : List DesiredPermission} :
    ∀ d ∈ idDiagnostics seen desiredState, d.code ∈ DECLARATION_CODES := by
  induction desiredState generalizing seen with
  | nil => simp [idDiagnostics]
  | cons entry rest ih =>
    intro d hd
    simp only [idDiagnostics, List.mem_append] at hd
    rcases hd with (hd | hd) | hd
    · simp only [invalidPermissionId] at hd
      split_ifs at hd
      · simp at hd
      · rw [List.mem_singleton.mp hd]
        simp [diagnostic, DECLARATION_CODES]
    · simp only [duplicatePermissionId] at hd
      split_ifs at hd
      · rw [List.mem_singleton.mp hd]
        simp [diagnostic, DECLARATION_CODES]
      · simp at hd
    · exact ih d hd

/-- Against no permissions, every alias is refused. -/
lemma hasErrors_aliasDiagnostics_nil {desiredState : List DesiredPermission} :
    hasErrors (desiredState.flatMap (aliasDiagnostics [])) = false ↔
      ∀ entry ∈ desiredState, entry.aliasOf = none := by
  rw [hasErrors, List.any_eq_false]
  constructor
  · intro hno entry hentry
    by_contra halias
    obtain ⟨aliasOf, haliasOf⟩ := Option.ne_none_iff_exists'.mp halias
    have hrefused : aliasTargetNotFound [] entry aliasOf ≠ [] := by
      simp [aliasTargetNotFound, InsertionMap.has, keys]
    obtain ⟨d, hd⟩ := List.exists_mem_of_ne_nil _ hrefused
    refine hno d (List.mem_flatMap.mpr ⟨entry, hentry, ?_⟩) ?_
    · rw [aliasDiagnostics, haliasOf]
      exact List.mem_append_left _ hd
    · simp only [aliasTargetNotFound] at hd
      split_ifs at hd
      · simp at hd
      · rw [List.mem_singleton.mp hd]
        rfl
  · intro hnone d hd
    obtain ⟨entry, hentry, hd⟩ := List.mem_flatMap.mp hd
    simp [aliasDiagnostics, hnone entry hentry] at hd

/-- The plan against no permissions, when the ids are in order. -/
lemma reconcile_fresh {desiredState : List DesiredPermission}
    (hids : idDiagnostics [] desiredState = []) :
    ((reconcilePermissions sha256Hex [] desiredState 1).plan.map (·.ops)) =
      if ∀ entry ∈ desiredState, entry.aliasOf = none then some (planOps [] desiredState)
      else none := by
  have hdiagnostics : reconcileDiagnostics [] desiredState 1 =
      desiredState.flatMap (aliasDiagnostics []) := by
    simp [reconcileDiagnostics, downgradeDiagnostics, newestGeneration, hids, currentById]
  simp only [reconcilePermissions, hdiagnostics]
  by_cases halias : ∀ entry ∈ desiredState, entry.aliasOf = none
  · rw [if_pos halias, hasErrors_aliasDiagnostics_nil.mpr halias]
    rfl
  · have herrors := hasErrors_aliasDiagnostics_nil.not.mpr halias
    rw [Bool.not_eq_false] at herrors
    rw [if_neg halias, herrors]
    rfl

lemma creates_planOps {desiredState : List DesiredPermission} {entry : DesiredPermission}
    (hentry : entry ∈ desiredState) : Creates (planOps [] desiredState) entry.id := by
  refine ⟨operationFor [] entry, ?_, ?_⟩
  · rw [planOps, (sortBy_perm _ _).mem_iff]
    exact List.mem_append_left _ (List.mem_map_of_mem hentry)
  · cases halias : entry.aliasOf with
    | none => simp [operationFor, halias, InsertionMap.get, PermissionOp.id, PermissionOp.op]
    | some aliasOf => simp [operationFor, halias, PermissionOp.id, PermissionOp.op]

variable {input : GeneratorInput N sha256Hex}

lemma declared_of_no_code
    (h : ∀ d ∈ (generatePermissionPlan input).diagnostics, d.1 ∉ DECLARATION_CODES) :
    (∀ loaded ∈ input.installed, ∀ entry ∈ definitionsOf loaded.manifest,
      inNamespace loaded.manifest entry = true) ∧
    idDiagnostics [] (desiredPermissionsFrom input).desired = [] := by
  have hcode : ∀ d ∈ (desiredPermissionsFrom input).diagnostics ++
      (reconcilePermissions sha256Hex [] (desiredPermissionsFrom input).desired 1).diagnostics,
      d.code ∉ DECLARATION_CODES := fun d hd =>
    h (d.code, d.severity, d.message) (List.mem_map.mpr ⟨d, hd, rfl⟩)
  constructor
  · intro loaded hloaded entry hentry
    by_contra hout
    refine hcode (outsideNamespace loaded.manifest entry) (List.mem_append_left _ ?_)
      (by simp [outsideNamespace, diagnostic, DECLARATION_CODES])
    simp only [desiredPermissionsFrom, List.mem_flatMap, List.mem_map, List.mem_filter]
    exact ⟨loaded, hloaded, entry, ⟨hentry, by simpa using hout⟩, rfl⟩
  · rw [List.eq_nil_iff_forall_not_mem]
    intro d hd
    refine hcode d (List.mem_append_right _ ?_) (code_idDiagnostics d hd)
    rw [reconcilePermissions, (sortBy_perm _ _).mem_iff, reconcileDiagnostics]
    exact List.mem_append_left _ (List.mem_append_right _ hd)

lemma mem_desired {entry : DesiredPermission} :
    entry ∈ (desiredPermissionsFrom input).desired ↔ ∃ loaded ∈ input.installed,
      entry ∈ definitionsOf loaded.manifest ∧ inNamespace loaded.manifest entry = true := by
  rw [desiredPermissionsFrom, (sortBy_perm _ _).mem_iff]
  simp only [List.mem_flatMap, List.mem_filter]

/-- Declarations that are fine one by one are all installed exactly when none is an alias. -/
theorem freshInstallPlan_creates_iff (input : GeneratorInput N sha256Hex)
    (h : ∀ d ∈ (generatePermissionPlan input).diagnostics, d.1 ∉ DECLARATION_CODES) :
    (∀ entry ∈ (generatePermissionPlan input).desired,
      Creates (generatePermissionPlan input).freshInstallPlan entry.id) ↔
    ∀ loaded ∈ input.installed, ∀ entry ∈ definitionsOf loaded.manifest, entry.aliasOf = none := by
  obtain ⟨hnamespace, hids⟩ := declared_of_no_code h
  have hplan : (generatePermissionPlan input).freshInstallPlan =
      (if ∀ entry ∈ (desiredPermissionsFrom input).desired, entry.aliasOf = none then
        some (planOps [] (desiredPermissionsFrom input).desired) else none).getD [] :=
    congrArg (fun ops : Option (List PermissionOp) => ops.getD []) (reconcile_fresh hids)
  rw [hplan]
  constructor
  · intro hcreates loaded hloaded entry hentry
    by_contra halias
    have hdesired := mem_desired.mpr ⟨loaded, hloaded, hentry, hnamespace loaded hloaded entry hentry⟩
    have hsome : ¬ ∀ entry ∈ (desiredPermissionsFrom input).desired, entry.aliasOf = none :=
      fun hnone => halias (hnone entry hdesired)
    rw [if_neg hsome] at hcreates
    obtain ⟨o, ho, _⟩ := hcreates entry hdesired
    simp at ho
  · intro hnone entry hentry
    have hall : ∀ entry ∈ (desiredPermissionsFrom input).desired, entry.aliasOf = none := by
      intro entry hentry
      obtain ⟨loaded, hloaded, hdefinition, _⟩ := mem_desired.mp hentry
      exact hnone loaded hloaded entry hdefinition
    rw [if_pos hall]
    exact creates_planOps hentry

/-- A plugin that declares these permissions. -/
def declaring (id : JsString) (definitions : List (Json ℤ)) : PluginManifestV1 ℤ :=
  let plain := plainManifest id [] []
  { plain with
    facets :=
      { plain.facets with
        rest := [(js "permissions", .obj [(js "definitions", .arr definitions)])] } }

/-- A permission that replaces another. -/
def renamed : Json ℤ :=
  .obj [(js "id", .str (js "a:role:write")), (js "displayName", .str (js "Write roles")),
    (js "aliasOf", .str (js "a:role:edit"))]

theorem freshInstallPlan_creates_bare : ∃ input ∈ (generatorInput
    (installedApp (fun text => text) [declaring (js "a") [.str (js "a:role:read")]] [enabledEntry (js "@x/a")])
    (fun _ _ => none) (js "1")).toOption,
    ∀ entry ∈ (generatePermissionPlan input).desired,
      Creates (generatePermissionPlan input).freshInstallPlan entry.id := by
  obtain ⟨input, hinput, hcodes, hnone⟩ : ∃ input ∈ (generatorInput
      (installedApp (fun text => text) [declaring (js "a") [.str (js "a:role:read")]] [enabledEntry (js "@x/a")])
      (fun _ _ => none) (js "1")).toOption,
      (∀ d ∈ (generatePermissionPlan input).diagnostics, d.1 ∉ DECLARATION_CODES) ∧
      ∀ loaded ∈ input.installed, ∀ entry ∈ definitionsOf loaded.manifest,
        entry.aliasOf = none := by
    decide +kernel
  exact ⟨input, hinput, (freshInstallPlan_creates_iff input hcodes).mpr hnone⟩

/-- One alias leaves a fresh install without the other permissions as well. -/
theorem freshInstallPlan_empty : ∃ input ∈ (generatorInput
    (installedApp (fun text => text) [declaring (js "a") [.str (js "a:role:read"), renamed]]
      [enabledEntry (js "@x/a")]) (fun _ _ => none) (js "1")).toOption,
    (∀ d ∈ (generatePermissionPlan input).diagnostics, d.1 ∉ DECLARATION_CODES) ∧
      ∃ entry ∈ (generatePermissionPlan input).desired,
        ¬ Creates (generatePermissionPlan input).freshInstallPlan entry.id := by
  decide +kernel

end FreshInstall

end Appspine.Permissions
