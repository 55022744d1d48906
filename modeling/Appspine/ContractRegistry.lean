import Appspine.ContractCli
import Appspine.Frontmatter
import Appspine.Utf8Decoding

/-!
# The contract registry

Contracts stand in folders, one for each version, and are checked all together. The digest of a
version covers every file of its folder; a lock file keeps the digests of approved versions, and a
binding names the digest of its capability.
-/
namespace Appspine.ContractRegistry
open JsText JsonText InsertionMap StableSort Utf16 Frontmatter JsonSchema ContractCli

section Folders

inductive Kind where
  | capability
  | binding
  deriving DecidableEq

def Kind.text : Kind → JsString
  | .capability => js "capability"
  | .binding => js "binding"

def Kind.directory : Kind → JsString
  | .capability => js "capabilities"
  | .binding => js "bindings"

def Kind.markdown : Kind → JsString
  | .capability => js "contract.md"
  | .binding => js "binding.md"

/-- The folder of a version: its files under their paths in it. -/
structure Folder where
  kind : Kind
  contractId : JsString
  version : JsString
  files : Entries JsString (List UInt8)

/-- `extname(path).toLowerCase() === '.tmp'`. -/
def isTemporary (path : JsString) : Bool :=
  let name := afterLast (unit '/') path
  decide (4 < name.length) && decide (asciiLower (name.drop (name.length - 4)) = js ".tmp")

/-- The files that the digest covers. -/
def Folder.tracked (folder : Folder) : Entries JsString (List UInt8) :=
  folder.files.filter fun e => decide (e.1 = folder.kind.markdown) || !isTemporary e.1

end Folders

section Discovery

/-- What the tool takes from elsewhere: where the contracts are, the hash, the order of
`localeCompare`, `Number`, the check against the meta schema, the one of OpenAPI documents, and the
texts of syntax errors. -/
structure Environment (N : Type) where
  contractsPath : JsString
  sha256Hex : List UInt8 → JsString
  collate : JsString → JsString → Bool
  toNumber : JsString → N
  metaSchemaErrors : Json N → List JsString
  openApiErrors : JsString → JsString → List JsString
  errorMessage : JsString → JsString

variable {N : Type} [NumberValue N]

structure Contract (N : Type) where
  folder : Folder
  status : Json N
  interaction : Option (Json N)
  source : JsString
  digest : JsString
  frontmatter : Json N
  artifacts : Entries JsString JsString

variable (env : Environment N)

def sourceOf (folder : Folder) : JsString :=
  join (js "/") [env.contractsPath, folder.kind.directory, folder.contractId, js "versions",
    folder.version, folder.kind.markdown]

def collectArtifacts (folder : Folder) : Entries JsString JsString :=
  ofEntries ((sortBy Prod.fst folder.tracked).map fun e => (e.1, env.sha256Hex e.2))

/-- What the digest is taken of. -/
def unsignedManifest (folder : Folder) (artifacts : Entries JsString JsString) : Json N :=
  .obj
    [ (js "contractId", .str folder.contractId),
      (js "version", .str folder.version),
      (js "kind", .str folder.kind.text),
      (js "canonicalSource", .str (sourceOf env folder)),
      (js "artifacts", .obj ((ofEntries (sortBy (fun e => e.1 ++ js "," ++ e.2) artifacts)).map
        fun e => (e.1, .str e.2))) ]

def makeManifest (folder : Folder) (artifacts : Entries JsString JsString) : JsString :=
  js "sha256:" ++ env.sha256Hex (utf8 (canonicalJson (unsignedManifest env folder artifacts)))

/-- `fm[name]`. -/
def Contract.entry (contract : Contract N) (name : JsString) : Option (Json N) :=
  field name contract.frontmatter

/-- `value ?? fallback`. -/
def orElse (value : Option (Json N)) (fallback : Json N) : Json N :=
  match value with
  | none => fallback
  | some .null => fallback
  | some value => value

def contractOf (folder : Folder) : Option (Contract N) :=
  (get folder.files folder.kind.markdown).map fun content =>
    let frontmatter := readFrontmatter env.toNumber (decodeUtf8 content)
    let artifacts := collectArtifacts env folder
    { folder := folder
      status := orElse (field (js "status") frontmatter) (.str (js "draft"))
      interaction := field (js "interaction") frontmatter
      source := sourceOf env folder
      digest := makeManifest env folder artifacts
      frontmatter := frontmatter
      artifacts := artifacts }

/-- `${contractId}@${version}`. -/
def Folder.key (folder : Folder) : JsString := folder.contractId ++ js "@" ++ folder.version

def Contract.key (contract : Contract N) : JsString := contract.folder.key

/-- The folders of one kind, by id and then by version. -/
def foldersOf (kind : Kind) (folders : List Folder) : List Folder :=
  sortBy Folder.contractId (sortBy Folder.version
    (folders.filter fun folder => decide (folder.kind = kind)))

def discoverContracts (folders : List Folder) : List (Contract N) :=
  ((foldersOf .capability folders ++ foldersOf .binding folders).filterMap
    (contractOf env)).insertionSort fun a b => env.collate a.key b.key = true

end Discovery

section Values

variable {N : Type} [NumberValue N]

def isTruthy (value : Option (Json N)) : Bool := value.any fun value => truthy (.json value)

/-- `===` between values of parsed documents; two objects or lists are never one. -/
def strictlyEqual : Option (Json N) → Option (Json N) → Bool
  | none, none => true
  | some .null, some .null => true
  | some (.bool a), some (.bool b) => decide (a = b)
  | some (.num a), some (.num b) => decide (NumberValue.toRat a = NumberValue.toRat b)
  | some (.str a), some (.str b) => decide (a = b)
  | _, _ => false

def isText (value : Option (Json N)) (text : JsString) : Bool :=
  strictlyEqual value (some (.str text))

def isOneOf (value : Option (Json N)) (texts : List JsString) : Bool := texts.any (isText value)

def isObject : Option (Json N) → Bool
  | some (.obj _) => true
  | _ => false

def isNonEmptyArray : Option (Json N) → Bool
  | some (.arr (_ :: _)) => true
  | _ => false

def isNonEmptyText : Option (Json N) → Bool
  | some (.str (_ :: _)) => true
  | _ => false

/-- `Number.isInteger(value) && value > 0`. -/
def isPositiveInteger : Option (Json N) → Bool
  | some (.num n) =>
    decide ((NumberValue.toRat n).den = 1) && decide (0 < NumberValue.toRat n)
  | _ => false

/-- `list?.includes(value)`. -/
def includes (list value : Option (Json N)) : Bool :=
  match list with
  | some (.arr items) => items.any fun item => strictlyEqual (some item) value
  | _ => false

/-- A value in a template. -/
def templateText (value : Option (Json N)) : JsString :=
  match value with
  | none => js "undefined"
  | some value => (textOf value).getD []

def entryOf (value : Option (Json N)) (name : JsString) : Option (Json N) := value.bind (field name)

/-- `if (found) errors.push(message)`. -/
def errorIf (found : Bool) (message : JsString) : List JsString := if found then [message] else []

/-- `/^\d+\.\d+\.\d+$/`. -/
def isSemVer (version : JsString) : Bool :=
  match version.splitOn (unit '.') with
  | [major, minor, patch] =>
    [major, minor, patch].all fun part => decide (part ≠ []) && part.all isDigit
  | _ => false

def isLineTerminator (u : CodeUnit) : Bool := decide (u.val ∈ [0x0A, 0x0D, 0x2028, 0x2029])

/-- Whether the line is one of the text: `^line$` with the flag `m`. -/
def hasLine (line content : JsString) : Bool :=
  (content.splitOnP isLineTerminator).any fun l => decide (l = line)

end Values

section Checks

variable {N : Type} [NumberValue N] (env : Environment N)

def requiredFields : List JsString :=
  [js "type", js "contract_kind", js "contract_id", js "version", js "status", js "interaction",
    js "transport", js "maintainer", js "required_reviewers"]

def validateContractFrontmatter (contract : Contract N) (key : JsString) : List JsString :=
  let fm := contract.entry
  (env.metaSchemaErrors contract.frontmatter).map (fun message => key ++ js ": frontmatter " ++ message) ++
    requiredFields.flatMap (fun name =>
      errorIf (strictlyEqual (fm name) none || strictlyEqual (fm name) (some .null) ||
        isText (fm name) []) (key ++ js ": frontmatter " ++ name ++ js " is required")) ++
    errorIf (isText (fm (js "contract_kind")) (js "capability") && !isTruthy (fm (js "provider")) &&
      !isTruthy (fm (js "producer"))) (key ++ js ": capability requires provider or producer") ++
    errorIf (isText (fm (js "contract_kind")) (js "binding") &&
      (!isTruthy (fm (js "capability_ref")) || !isTruthy (fm (js "source_app")) ||
        !isTruthy (fm (js "destination_app"))))
      (key ++ js ": binding requires capability_ref, source_app and destination_app") ++
    errorIf ((fm (js "required_reviewers")).isSome && !isNonEmptyArray (fm (js "required_reviewers")))
      (key ++ js ": required_reviewers must be a non-empty array") ++
    errorIf (isText (fm (js "status")) (js "approved") &&
      isText (fm (js "implementation_status")) (js "disabled"))
      (key ++ js ": approved contract cannot be disabled")

def headings : List JsString :=
  [js "Purpose", js "Participants and ownership", js "Trigger and business semantics",
    js "Authentication and authorization", js "Idempotency and retry",
    js "Errors and failure handling", js "Observability and audit",
    js "Compatibility and versioning", js "Acceptance scenarios"]

def identityErrors (contract : Contract N) (key : JsString) : List JsString :=
  let fm := contract.entry
  errorIf (!isText (fm (js "type")) (js "integration-contract"))
      (key ++ js ": type must be integration-contract") ++
    errorIf (!isSemVer contract.folder.version) (key ++ js ": invalid SemVer") ++
    errorIf (!isText (fm (js "contract_id")) contract.folder.contractId ||
      !isText (fm (js "version")) contract.folder.version)
      (key ++ js ": directory and frontmatter identity differ") ++
    errorIf (!isOneOf (fm (js "interaction")) [js "command", js "query", js "event"])
      (key ++ js ": interaction is required") ++
    errorIf (!isOneOf (fm (js "status")) [js "draft", js "review", js "approved", js "deprecated"])
      (key ++ js ": invalid status")

def headingErrors (contract : Contract N) (key : JsString) : List JsString :=
  let content := decodeUtf8 ((get contract.folder.files contract.folder.kind.markdown).getD [])
  headings.flatMap fun heading =>
    errorIf (!hasLine (js "## " ++ heading) content)
      (key ++ js ": missing heading \"" ++ heading ++ js "\"")

def capabilityErrors (contract : Contract N) (key : JsString) : List JsString :=
  let fm := contract.entry
  let interaction := templateText (fm (js "interaction"))
  if isOneOf (fm (js "interaction")) [js "command", js "query"] then
    errorIf (!isNonEmptyText (fm (js "provider")))
        (key ++ js ": " ++ interaction ++ js " capability requires provider") ++
      errorIf (!isNonEmptyArray (fm (js "callers")))
        (key ++ js ": " ++ interaction ++ js " capability requires callers") ++
      errorIf (!isText (fm (js "transport")) (js "http"))
        (key ++ js ": " ++ interaction ++ js " capability must use HTTP transport")
  else
    errorIf (!isNonEmptyText (fm (js "producer")))
        (key ++ js ": event capability requires producer") ++
      errorIf (!isNonEmptyArray (fm (js "consumers")))
        (key ++ js ": event capability requires consumers") ++
      errorIf (!isOneOf (fm (js "transport")) [js "webhook", js "message-broker"])
        (key ++ js ": event capability must use webhook or message-broker transport")

def bindingErrors (contract : Contract N) (key : JsString) : List JsString :=
  let fm := contract.entry
  let retry := fm (js "retry")
  errorIf (!isTruthy (fm (js "capability_ref")) || !isTruthy (fm (js "source_app")) ||
      !isTruthy (fm (js "destination_app")))
      (key ++ js ": capability_ref, source_app and destination_app are required") ++
    errorIf (strictlyEqual (fm (js "source_app")) (fm (js "destination_app")))
      (key ++ js ": source_app and destination_app must differ") ++
    errorIf (!isNonEmptyText (fm (js "destination_key")))
      (key ++ js ": destination_key is required") ++
    errorIf (!isObject (fm (js "authentication")))
      (key ++ js ": authentication policy is required") ++
    if isObject retry then
      errorIf (!isPositiveInteger (entryOf retry (js "timeout_ms")))
          (key ++ js ": retry.timeout_ms must be a positive integer") ++
        errorIf (!isPositiveInteger (entryOf retry (js "max_attempts")))
          (key ++ js ": retry.max_attempts must be a positive integer")
    else [key ++ js ": retry policy is required"]

def endsWith (text ending : JsString) : Bool := ending.isSuffixOf text

def artifactErrors (contract : Contract N) (key artifact : JsString) : List JsString :=
  let content := decodeUtf8 ((get contract.folder.files artifact).getD [])
  let label := key ++ js ":" ++ artifact
  let invalid := [key ++ js ": invalid JSON artifact " ++ artifact ++ js ": " ++
    env.errorMessage content]
  (if endsWith artifact (js ".json") then
    match (parse content : Option (Json N)) with
    | none => invalid
    | some parsed =>
      if endsWith artifact (js ".schema.json") then
        (validateJsonSchemaDocument label parsed (js "$")).getD invalid
      else []
  else []) ++
    if endsWith artifact (js ".yaml") || endsWith artifact (js ".yml") then
      env.openApiErrors content label
    else []

/-- The errors of one contract by itself. -/
def contractErrors (contract : Contract N) : List JsString :=
  let key := contract.key
  validateContractFrontmatter env contract key ++ identityErrors contract key ++
    headingErrors contract key ++
    (match contract.folder.kind with
      | .capability => capabilityErrors contract key
      | .binding => bindingErrors contract key) ++
    (keys contract.artifacts).flatMap (artifactErrors env contract key)

/-- The loop over the contracts; `seen` holds the keys of those before. -/
def contractsErrors (seen : List JsString) : List (Contract N) → List JsString
  | [] => []
  | contract :: rest =>
    errorIf (decide (contract.key ∈ seen)) (js "duplicate contract " ++ contract.key) ++
      contractErrors env contract ++ contractsErrors (contract.key :: seen) rest

def isApproved (contract : Contract N) : Bool := isText (some contract.status) (js "approved")

def lockErrors (locks : Json N) (contract : Contract N) : List JsString :=
  let expected := field contract.key locks
  if !isTruthy expected then [contract.key ++ js ": approved digest lock is missing"]
  else if !isText expected contract.digest then
    [contract.key ++ js ": approved contract is immutable and its digest changed"]
  else []

/-- The capabilities by key; a later one takes the place of an earlier one. -/
def capabilityAt (contracts : List (Contract N)) (key : JsString) : Option (Contract N) :=
  contracts.reverse.find? fun contract =>
    decide (contract.folder.kind = .capability) && decide (contract.key = key)

def refKey (binding : Contract N) : JsString :=
  let ref := binding.entry (js "capability_ref")
  templateText (entryOf ref (js "contract_id")) ++ js "@" ++ templateText (entryOf ref (js "version"))

def pinErrors (binding capability : Contract N) : List JsString :=
  let key := binding.key
  let ref := binding.entry (js "capability_ref")
  let source := binding.entry (js "source_app")
  let destination := binding.entry (js "destination_app")
  errorIf (!isText (entryOf ref (js "digest")) capability.digest)
      (key ++ js ": capability_ref digest does not match canonical capability") ++
    errorIf (!strictlyEqual binding.interaction capability.interaction)
      (key ++ js ": interaction must match referenced capability") ++
    if isOneOf capability.interaction [js "command", js "query"] then
      errorIf (!includes (capability.entry (js "callers")) source)
          (key ++ js ": source_app must be a declared caller") ++
        errorIf (!strictlyEqual destination (capability.entry (js "provider")))
          (key ++ js ": destination_app must be the declared provider")
    else
      errorIf (!strictlyEqual source (capability.entry (js "producer")))
          (key ++ js ": source_app must be the declared producer") ++
        errorIf (!includes (capability.entry (js "consumers")) destination)
          (key ++ js ": destination_app must be a declared consumer")

def referenceErrors (contracts : List (Contract N)) (binding : Contract N) : List JsString :=
  if isTruthy (binding.entry (js "capability_ref")) then
    match capabilityAt contracts (refKey binding) with
    | none => [binding.key ++ js ": capability_ref not found"]
    | some capability => pinErrors binding capability
  else []

/-- The part of `validateDiscovered` on the lock file. A file that is no JSON, or `null` where a
contract is approved, makes it throw. -/
def lockFileErrors (contracts : List (Contract N)) : Option (List UInt8) →
    Except JsString (List JsString)
  | none => .ok []
  | some content =>
    match (parse (decodeUtf8 content) : Option (Json N)), contracts.filter isApproved with
    | none, _ => .error (env.errorMessage (decodeUtf8 content))
    | some .null, _ :: _ => .error (env.errorMessage (js "null"))
    | some locks, approved => .ok (approved.flatMap (lockErrors locks))

def validateDiscovered (contracts : List (Contract N)) (lock : Option (List UInt8)) :
    Except JsString (List JsString) := do
  let locked ← lockFileErrors env contracts lock
  .ok (contractsErrors env [] contracts ++ locked ++
    (contracts.filter fun contract => decide (contract.folder.kind = .binding)).flatMap
      (referenceErrors contracts))

end Checks

section Registries

variable {N : Type} [NumberValue N]

/-- What stands on disk. A folder stands under its own name, and a file under its path. -/
structure Registry where
  folders : List Folder
  lock : Option (List UInt8)
  distinct : (folders.map fun folder => (folder.kind, folder.contractId, folder.version)).Nodup
  paths : ∀ folder ∈ folders, (keys folder.files).Nodup

variable (env : Environment N)

def Registry.contracts (registry : Registry) : List (Contract N) :=
  discoverContracts env registry.folders

/-- `contract-cli validate` has nothing to say. -/
def Valid (registry : Registry) : Prop :=
  validateDiscovered env (registry.contracts env) registry.lock = .ok []

end Registries

end Appspine.ContractRegistry
