import Appspine.PluginManifest
import Appspine.InsertionMap

/-!
# The config boundary

What the CLI can say about a `configRef` without reading a config value: whether it looks
like a credential, names a secret, or disagrees with the manifest.
-/
namespace Appspine.ConfigBoundary
open JsText InsertionMap PluginManifest

section Secrets

/-- `s.includes(part)`. -/
def includes (s part : JsString) : Bool := (breakOn part s).2.isSome

def isDigitUnit (u : CodeUnit) : Bool := decide (48 ≤ u.val ∧ u.val ≤ 57)

def isLetterUnit (u : CodeUnit) : Bool :=
  decide (65 ≤ u.val ∧ u.val ≤ 90 ∨ 97 ≤ u.val ∧ u.val ≤ 122)

/-- `\w`. -/
def isWordUnit (u : CodeUnit) : Bool := isLetterUnit u || isDigitUnit u || decide (u = unit '_')

/-- `\s`. -/
def isSpaceUnit (u : CodeUnit) : Bool :=
  decide (9 ≤ u.val ∧ u.val ≤ 13 ∨ 0x2000 ≤ u.val ∧ u.val ≤ 0x200A ∨
    u.val ∈ [0x20, 0xA0, 0x1680, 0x2028, 0x2029, 0x202F, 0x205F, 0x3000, 0xFEFF])

/-- A unit as a case-insensitive pattern of ASCII letters sees it. -/
def foldUnit (u : CodeUnit) : CodeUnit := if 65 ≤ u.val ∧ u.val ≤ 90 then u + 32 else u

/-- Two words with at most one `-` or `_` between them. -/
def spellings (first second : String) : List JsString :=
  [js (first ++ second), js (first ++ "-" ++ second), js (first ++ "_" ++ second)]

/-- The alternatives of the pattern `SECRET_LOOKING_KEY`, `\bdsn\b` apart. -/
def SECRET_LOOKING_PARTS : List JsString :=
  [js "secret", js "password", js "passwd", js "token"] ++ spellings "api" "key" ++
    [js "credential"] ++ spellings "private" "key" ++ spellings "connection" "string" ++
    ["database", "db", "redis", "amqp", "mongo", "postgres", "mysql", "broker"].flatMap
      (fun service => spellings service "url" ++ spellings service "uri") ++
    spellings "access" "key" ++ spellings "session" "key" ++ spellings "signing" "key" ++
    [js "webhook", js "salt", js "passphrase"]

/-- `\bword\b` in a text that follows the unit `before`. -/
def hasWord (word : JsString) (before : Option CodeUnit) : JsString → Bool
  | [] => false
  | u :: us =>
    (!before.any isWordUnit && startsWith (u :: us) word &&
      !((u :: us).drop word.length).head?.any isWordUnit) || hasWord word (some u) us

def isSecretLookingKey (key : JsString) : Bool :=
  let folded := key.map foldUnit
  SECRET_LOOKING_PARTS.any (includes folded) || hasWord (js "dsn") none folded

/-- `[A-Za-z0-9_-]`. -/
def isTokenUnit (u : CodeUnit) : Bool := isWordUnit u || decide (u = unit '-')

/-- `ey[A-Za-z0-9_-]+`. -/
def isJwtPart (part : JsString) : Bool :=
  startsWith part (js "ey") && decide (2 < part.length) && part.all isTokenUnit

/-- `^ey[A-Za-z0-9_-]+\.ey[A-Za-z0-9_-]+(\.[A-Za-z0-9_-]+)?$`. -/
def isJwtShaped (s : JsString) : Bool :=
  match s.splitOn (unit '.') with
  | [header, payload] => isJwtPart header && isJwtPart payload
  | [header, payload, signature] =>
    isJwtPart header && isJwtPart payload && signature ≠ [] && signature.all isTokenUnit
  | _ => false

/-- `^[A-Za-z0-9+/_-]{32,}={0,2}$`. -/
def isBase64Shaped (s : JsString) : Bool :=
  let run := s.takeWhile (fun u => isTokenUnit u || decide (u = unit '+' ∨ u = unit '/'))
  let padding := s.drop run.length
  decide (32 ≤ run.length) && decide (padding.length ≤ 2) && padding.all (· = unit '=')

/-- `^[A-Fa-f0-9]{32,}$`. -/
def isHexShaped (s : JsString) : Bool :=
  decide (32 ≤ s.length) &&
    s.all (fun u => isDigitUnit u || decide (97 ≤ (foldUnit u).val ∧ (foldUnit u).val ≤ 102))

/-- `^(sk|pk|ghp|gho|xox[abpr])[-_]`. -/
def hasKeyPrefix (s : JsString) : Bool :=
  ["sk", "pk", "ghp", "gho", "xoxa", "xoxb", "xoxp", "xoxr"].any (fun issuer =>
    startsWith s (js (issuer ++ "-")) || startsWith s (js (issuer ++ "_")))

/-- `CREDENTIAL_SHAPED.test(s)`. -/
def isCredentialShaped (s : JsString) : Bool :=
  s.any isSpaceUnit || includes s (js "://") || includes s (js "-----BEGIN ") || isJwtShaped s ||
    isBase64Shaped s || isHexShaped s || hasKeyPrefix s

end Secrets

section Boundary

variable {N : Type}

def pluginIdOfRef (pluginRef : JsString) : JsString := afterLast (unit '/') pluginRef

/-- `diagnostic(code, message, extra)` with the default severity. -/
def diagnostic (code message : JsString) (pluginId instanceId path : Option JsString) :
    PluginDiagnostic :=
  { code := code, severity := .error, message := message, pluginId := pluginId,
    instanceId := instanceId, path := path }

def configRefPath (index : ℕ) : JsString :=
  js "plugins[" ++ js (toString index) ++ js "].configRef"

/-- What is said about one entry with a `configRef`. -/
def configRefDiagnostics (manifests : Entries JsString (PluginManifestV1 N))
    (entry : PluginInventoryEntry) (configRef : JsString) (index : ℕ) : List PluginDiagnostic :=
  if isCredentialShaped configRef then
    [diagnostic (js "secret-value-in-inventory")
      (js ("configRef looks like a value, not a dotted path into the App config. The inventory is " ++
        "committed and must never contain a credential; put the value in the environment and " ++
        "reference it from appspine.config.ts"))
      none (some entry.instanceId) (some (configRefPath index))]
  else
    (if (configRef.splitOn (unit '.')).any isSecretLookingKey then
      [diagnostic (js "secret-looking-config-ref")
        (js "configRef segment names a secret (\"" ++ configRef ++ js ("\"). A configRef points at " ++
          "a config branch; credentials belong in the environment, declared as manifest " ++
          "environment keys"))
        none (some entry.instanceId) (some (configRefPath index))]
    else []) ++
    match InsertionMap.get manifests (pluginIdOfRef entry.plugin) with
    | none => []
    | some manifest =>
      match manifest.configSchema with
      | none =>
        [diagnostic (js "config-ref-not-declared")
          (js "\"" ++ manifest.id ++ js "\" declares no configSchema, so it takes no configRef")
          (some manifest.id) (some entry.instanceId) (some (configRefPath index))]
      | some schema =>
        if schema.configRef ≠ configRef then
          [diagnostic (js "config-ref-mismatch")
            (js "inventory configRef \"" ++ configRef ++ js "\" does not match the manifest's \"" ++
              schema.configRef ++ js "\"")
            (some manifest.id) (some entry.instanceId) (some (configRefPath index))]
        else []

def entryBoundary (manifests : Entries JsString (PluginManifestV1 N))
    (entry : PluginInventoryEntry) (index : ℕ) : List PluginDiagnostic :=
  entry.configRef.elim [] (fun configRef => configRefDiagnostics manifests entry configRef index)

def checkConfigBoundary (plugins : List PluginInventoryEntry)
    (manifests : Entries JsString (PluginManifestV1 N)) : List PluginDiagnostic :=
  plugins.zipIdx.flatMap (fun e => entryBoundary manifests e.1 e.2)

/-- Whatever the boundary reports is an error. -/
lemma severity_entryBoundary {manifests : Entries JsString (PluginManifestV1 N)}
    {entry : PluginInventoryEntry} {index : ℕ} :
    ∀ d ∈ entryBoundary manifests entry index, d.severity = .error := by
  unfold entryBoundary
  cases entry.configRef with
  | none => simp
  | some configRef =>
    simp only [Option.elim_some, configRefDiagnostics]
    repeat' split
    all_goals simp [diagnostic]

/-- Where an entry stands does not matter for whether something is reported of it. -/
lemma entryBoundary_eq_nil {manifests : Entries JsString (PluginManifestV1 N)}
    {entry : PluginInventoryEntry} {index index' : ℕ} (h : entryBoundary manifests entry index = []) :
    entryBoundary manifests entry index' = [] := by
  unfold entryBoundary at h ⊢
  cases href : entry.configRef with
  | none => rfl
  | some configRef =>
    rw [href] at h
    simp only [Option.elim_some, configRefDiagnostics] at h ⊢
    revert h
    repeat' split
    all_goals simp

lemma hasErrors_checkConfigBoundary {manifests : Entries JsString (PluginManifestV1 N)}
    {plugins : List PluginInventoryEntry} :
    hasErrors (checkConfigBoundary plugins manifests) = false ↔
      ∀ entry ∈ plugins, entryBoundary manifests entry 0 = [] := by
  have herror : ∀ d ∈ checkConfigBoundary plugins manifests, d.severity = .error := by
    intro d hd
    obtain ⟨e, _, he⟩ := List.mem_flatMap.mp hd
    exact severity_entryBoundary d he
  rw [hasErrors_eq_false_iff herror, checkConfigBoundary, List.flatMap_eq_nil_iff]
  constructor
  · intro h entry hentry
    obtain ⟨index, hindex⟩ := List.mem_iff_getElem?.mp hentry
    exact entryBoundary_eq_nil (h (entry, index)
      (List.mk_mem_zipIdx_iff_getElem?.mpr hindex))
  · rintro h ⟨entry, index⟩ hentry
    exact entryBoundary_eq_nil (h entry (List.fst_mem_of_mem_zipIdx hentry))

end Boundary

end Appspine.ConfigBoundary
