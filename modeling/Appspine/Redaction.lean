import Appspine.KeyOrder
import Appspine.ConfigBoundary
import Appspine.IntegrationEnvelope

/-!
# Redacted configuration

`redactConfig`, which copies a config tree for a diagnostic with the values under secret keys and the
nodes below the depth limit replaced.
-/
namespace Appspine.Diagnostics
open JsText JsonText InsertionMap StableSort
open ConfigBoundary (isSecretLookingKey)
open Integration (JsonValue)

variable {N : Type}

section Redact

def REDACTED : JsString := js "[redacted]"

structure EnvironmentContribution where
  key : JsString
  secret : Bool

/-- Declared secret env keys. -/
def declaredSecretKeys (toLowerCase : JsString → JsString)
    (environment : Option (List EnvironmentContribution)) : List JsString :=
  distinct (((environment.getD []).filter (·.secret)).map (fun entry => toLowerCase entry.key))

/-- An infinite limit is no limit. -/
structure RedactOptions where
  secretKeys : Option (List JsString)
  maxDepth : Option ℕ∞

/-- `key.toLowerCase().replace(/_/g, '')`. -/
def normalizedKey (toLowerCase : JsString → JsString) (key : JsString) : JsString :=
  (toLowerCase key).filter (· ≠ unit '_')

def isSecretKey (toLowerCase : JsString → JsString) (options : RedactOptions) (key : JsString) :
    Bool :=
  isSecretLookingKey key ||
    decide (normalizedKey toLowerCase key ∈
      (options.secretKeys.getD []).map (normalizedKey toLowerCase))

def isNull : Json N → Bool
  | .null => true
  | _ => false

/-- What decides about a node: the secret keys and the depth limit. -/
structure Policy where
  isSecret : JsString → Bool
  maxDepth : ℕ∞

/-- A node that is replaced: it is under a secret key and not `null`, or too deep. -/
def Policy.redacts (policy : Policy) (depth : ℕ) (keyHint : Option JsString) (node : Json N) : Bool :=
  (keyHint.any policy.isSecret && !isNull node) || decide (policy.maxDepth ≤ depth)

mutual

/-- The copy of a node; items of an array have the array's key. -/
def walk (policy : Policy) (depth : ℕ) (keyHint : Option JsString) : Json N → Json N
  | .arr items =>
    if policy.redacts depth keyHint (.arr items) then .str REDACTED
    else .arr (walkItems policy (depth + 1) keyHint items)
  | .obj members =>
    if policy.redacts depth keyHint (.obj members) then .str REDACTED
    else .obj (assignAll (walkMembers policy (depth + 1) members))
  | node => if policy.redacts depth keyHint node then .str REDACTED else node

def walkItems (policy : Policy) (depth : ℕ) (keyHint : Option JsString) :
    List (Json N) → List (Json N)
  | [] => []
  | item :: items => walk policy depth keyHint item :: walkItems policy depth keyHint items

def walkMembers (policy : Policy) (depth : ℕ) :
    List (JsString × Json N) → List (JsString × Json N)
  | [] => []
  | (key, child) :: members =>
    (key, walk policy depth (some key) child) :: walkMembers policy depth members

end

def policyOf (toLowerCase : JsString → JsString) (options : RedactOptions) : Policy where
  isSecret := isSecretKey toLowerCase options
  maxDepth := options.maxDepth.getD 12

def redactConfig (toLowerCase : JsString → JsString) (options : RedactOptions) (value : Json N) :
    Json N :=
  walk (policyOf toLowerCase options) 0 none value

/-- The secrets are those that a manifest declares in its environment. -/
def redactConfigForManifest (toLowerCase : JsString → JsString)
    (environment : Option (List EnvironmentContribution)) (config : Json N) : Json N :=
  redactConfig toLowerCase
    { secretKeys := some (declaredSecretKeys toLowerCase environment), maxDepth := none } config

variable {policy : Policy} {depth : ℕ} {keyHint : Option JsString}

lemma walkItems_eq (items : List (Json N)) :
    walkItems policy depth keyHint items = items.map (walk policy depth keyHint) := by
  induction items with
  | nil => rfl
  | cons item items ih => rw [walkItems, ih, List.map_cons]

lemma walkMembers_eq (members : List (JsString × Json N)) :
    walkMembers policy depth members =
      members.map (fun m => (m.1, walk policy depth (some m.1) m.2)) := by
  induction members with
  | nil => rfl
  | cons m members ih => rw [walkMembers, ih, List.map_cons]

lemma keys_walkMembers (members : List (JsString × Json N)) :
    (walkMembers policy depth members).map Prod.fst = members.map Prod.fst := by
  rw [walkMembers_eq, List.map_map]
  rfl

lemma walk_of_redacts {node : Json N} (h : policy.redacts depth keyHint node = true) :
    walk policy depth keyHint node = .str REDACTED := by
  cases node <;> simp [walk, h]

lemma walk_arr {items : List (Json N)} (h : policy.redacts depth keyHint (.arr items) = false) :
    walk policy depth keyHint (.arr items) =
      .arr (items.map (walk policy (depth + 1) keyHint)) := by
  rw [walk, h, walkItems_eq]
  rfl

lemma walk_obj {members : List (JsString × Json N)}
    (h : policy.redacts depth keyHint (.obj members) = false) :
    walk policy depth keyHint (.obj members) =
      .obj (assignAll (walkMembers policy (depth + 1) members)) := by
  rw [walk, h]
  rfl

/-- Nodes that are both `null` or both not are redacted at the same places. -/
lemma redacts_congr {node node' : Json N} (h : isNull node = isNull node') :
    policy.redacts depth keyHint node = policy.redacts depth keyHint node' := by
  rw [Policy.redacts, Policy.redacts, h]

end Redact

section Noninterference

variable {policy : Policy}

/-- The trees differ in subtrees under secret keys only, and not by whether these are `null`. -/
inductive SecretsDiffer (policy : Policy) : Json N → Json N → Prop
  | refl (j : Json N) : SecretsDiffer policy j j
  | trans {i j k : Json N} (hij : SecretsDiffer policy i j) (hjk : SecretsDiffer policy j k) :
      SecretsDiffer policy i k
  | secret {v w : Json N} (before after : List (JsString × Json N)) (key : JsString)
      (hkey : policy.isSecret key = true) (hv : isNull v = false) (hw : isNull w = false) :
      SecretsDiffer policy (.obj (before ++ (key, v) :: after)) (.obj (before ++ (key, w) :: after))
  | item {i j : Json N} (before after : List (Json N)) (h : SecretsDiffer policy i j) :
      SecretsDiffer policy (.arr (before ++ i :: after)) (.arr (before ++ j :: after))
  | member {i j : Json N} (before after : List (JsString × Json N)) (key : JsString)
      (h : SecretsDiffer policy i j) :
      SecretsDiffer policy (.obj (before ++ (key, i) :: after)) (.obj (before ++ (key, j) :: after))

lemma walk_obj_congr {depth : ℕ} {keyHint : Option JsString} {ms ms' : List (JsString × Json N)}
    (h : walkMembers policy (depth + 1) ms = walkMembers policy (depth + 1) ms') :
    walk policy depth keyHint (.obj ms) = walk policy depth keyHint (.obj ms') := by
  have hsame : policy.redacts depth keyHint (.obj ms) = policy.redacts depth keyHint (.obj ms') :=
    redacts_congr rfl
  rw [walk, walk, hsame, h]

/-- What is under secret keys does not show in the copy. -/
lemma walk_eq_of_secretsDiffer {v w : Json N} (h : SecretsDiffer policy v w) (depth : ℕ)
    (keyHint : Option JsString) : walk policy depth keyHint v = walk policy depth keyHint w := by
  induction h generalizing depth keyHint with
  | refl j => rfl
  | trans _ _ hij hjk => exact (hij depth keyHint).trans (hjk depth keyHint)
  | @secret v w before after key hkey hv hw =>
    have hredacted : ∀ u : Json N, isNull u = false →
        walk policy (depth + 1) (some key) u = .str REDACTED := by
      intro u hu
      apply walk_of_redacts
      simp [Policy.redacts, hkey, hu]
    apply walk_obj_congr
    simp only [walkMembers_eq, List.map_append, List.map_cons, hredacted v hv, hredacted w hw]
  | @item i j before after _ ih =>
    have hsame : policy.redacts depth keyHint (.arr (before ++ i :: after)) =
        policy.redacts depth keyHint (.arr (before ++ j :: after)) := redacts_congr rfl
    rw [walk, walk, hsame]
    simp only [walkItems_eq, List.map_append, List.map_cons, ih]
  | member before after key _ ih =>
    apply walk_obj_congr
    simp only [walkMembers_eq, List.map_append, List.map_cons, ih]

end Noninterference

section Structure

/-- A step into an object or an array. -/
inductive Step where
  | key (key : JsString)
  | index (index : ℕ)

/-- The node at a path. -/
def nodeAt : Json N → List Step → Option (Json N)
  | node, [] => some node
  | .obj members, .key key :: path => (InsertionMap.get members key).bind (nodeAt · path)
  | .arr items, .index index :: path => items[index]?.bind (nodeAt · path)
  | _, _ :: _ => none

variable (policy : Policy)

/-- The node at a path, where neither it nor a node above it is redacted. -/
def shownAt (depth : ℕ) (keyHint : Option JsString) (node : Json N) : List Step → Option (Json N)
  | [] => if policy.redacts depth keyHint node then none else some node
  | step :: path =>
    if policy.redacts depth keyHint node then none
    else
      match node, step with
      | .obj members, .key key =>
        (InsertionMap.get members key).bind (shownAt (depth + 1) (some key) · path)
      | .arr items, .index index => items[index]?.bind (shownAt (depth + 1) keyHint · path)
      | _, _ => none

/-- The same object keys, the same array length; any other value is the same. -/
def SameShape : Json N → Json N → Prop
  | .obj ms, .obj ms' => ∀ key, key ∈ keys ms ↔ key ∈ keys ms'
  | .arr xs, .arr ys => xs.length = ys.length
  | j, j' => j = j'

/-- What is shown keeps its place and its shape. -/
def KeepsStructure (depth : ℕ) (keyHint : Option JsString) (value copy : Json N) : Prop :=
  ∀ path node, shownAt policy depth keyHint value path = some node →
    ∃ node', nodeAt copy path = some node' ∧ SameShape node node'

/-- No object that is shown has a member named `__proto__`. -/
def ShowsNoProto (depth : ℕ) (keyHint : Option JsString) (value : Json N) : Prop :=
  ∀ path members, shownAt policy depth keyHint value path = some (.obj members) →
    js "__proto__" ∉ keys members

variable {policy} {depth : ℕ} {keyHint : Option JsString}

lemma get_walkMembers (members : List (JsString × Json N)) (key : JsString) :
    InsertionMap.get (walkMembers policy depth members) key =
      (InsertionMap.get members key).map (walk policy depth (some key)) := by
  induction members with
  | nil => rfl
  | cons m members ih =>
    rw [walkMembers, get_cons, get_cons, ih]
    split_ifs with hkey
    · rw [hkey]
      rfl
    · rfl

lemma get_assignAll {entries : List (JsString × Json N)} (h : (entries.map Prod.fst).Nodup)
    (key : JsString) : InsertionMap.get (assignAll entries) key =
      if key = js "__proto__" then none else InsertionMap.get entries key := by
  rw [get_perm (nodup_assignAll h) (assignAll_perm h)]
  split_ifs with hkey
  · rw [get_eq_none]
    intro hmem
    obtain ⟨e, he, rfl⟩ := List.mem_map.mp hmem
    exact of_decide_eq_true (List.mem_filter.mp he).2 hkey
  · exact get_filter_key (fun k => k ≠ js "__proto__") _ (by simpa using hkey)

lemma mem_keys_iff {entries : List (JsString × Json N)} {key : JsString} :
    key ∈ keys entries ↔ InsertionMap.get entries key ≠ none := by
  rw [ne_eq, get_eq_none, not_not]

lemma get_walked {members : List (JsString × Json N)} (h : (members.map Prod.fst).Nodup)
    (key : JsString) :
    InsertionMap.get (assignAll (walkMembers policy depth members)) key =
      if key = js "__proto__" then none
      else (InsertionMap.get members key).map (walk policy depth (some key)) := by
  rw [get_assignAll (by rwa [keys_walkMembers]), get_walkMembers]

/-- Nothing in a copy has a member named `__proto__`. -/
lemma noProto_walk {value : Json N} (h : uniqueKeys value = true) {path : List Step}
    {members : List (JsString × Json N)}
    (hnode : nodeAt (walk policy depth keyHint value) path = some (.obj members)) :
    js "__proto__" ∉ keys members := by
  induction path generalizing value depth keyHint with
  | nil =>
    rw [nodeAt, Option.some.injEq] at hnode
    cases hredacts : policy.redacts depth keyHint value with
    | true => simp [walk_of_redacts hredacts] at hnode
    | false =>
      cases value with
      | obj ms =>
        rw [walk_obj hredacts] at hnode
        obtain rfl := Json.obj.inj hnode
        rw [← get_eq_none, get_walked (uniqueKeys_obj.mp h).1, if_pos rfl]
      | arr items =>
        rw [walk_arr hredacts] at hnode
        cases hnode
      | _ => simp [walk, hredacts] at hnode
  | cons step path ih =>
    cases hredacts : policy.redacts depth keyHint value with
    | true => cases step <;> simp [walk_of_redacts hredacts, nodeAt] at hnode
    | false =>
      cases value with
      | obj ms =>
        rw [walk_obj hredacts] at hnode
        cases step with
        | index index => cases hnode
        | key key =>
          rw [nodeAt, get_walked (uniqueKeys_obj.mp h).1, Option.bind_eq_some_iff] at hnode
          obtain ⟨copy, hcopy, hnode⟩ := hnode
          split_ifs at hcopy
          obtain ⟨child, hchild, rfl⟩ := Option.map_eq_some_iff.mp hcopy
          exact ih ((uniqueKeys_obj.mp h).2 _ (mem_of_get hchild)) hnode
      | arr items =>
        rw [walk_arr hredacts] at hnode
        cases step with
        | key key => cases hnode
        | index index =>
          rw [nodeAt, List.getElem?_map, Option.bind_eq_some_iff] at hnode
          obtain ⟨copy, hcopy, hnode⟩ := hnode
          obtain ⟨child, hchild, rfl⟩ := Option.map_eq_some_iff.mp hcopy
          exact ih (uniqueKeys_arr.mp h _ (List.mem_of_getElem? hchild)) hnode
      | _ => cases step <;> simp [walk, hredacts, nodeAt] at hnode

lemma shownAt_cons {value node : Json N} {step : Step} {path : List Step}
    (h : shownAt policy depth keyHint value (step :: path) = some node) :
    policy.redacts depth keyHint value = false := by
  cases hredacts : policy.redacts depth keyHint value with
  | true => simp [shownAt, hredacts] at h
  | false => rfl

lemma shownAt_nil {value node : Json N} (h : shownAt policy depth keyHint value [] = some node) :
    policy.redacts depth keyHint value = false ∧ node = value := by
  rw [shownAt] at h
  split_ifs at h with hredacts
  exact ⟨Bool.not_eq_true _ |>.mp hredacts, (Option.some.inj h).symm⟩

lemma shownAt_key {members : List (JsString × Json N)} {key : JsString} {path : List Step}
    (h : policy.redacts depth keyHint (.obj members) = false) :
    shownAt policy depth keyHint (.obj members) (.key key :: path) =
      (InsertionMap.get members key).bind (shownAt policy (depth + 1) (some key) · path) := by
  rw [shownAt, h]
  rfl

lemma shownAt_index {items : List (Json N)} {index : ℕ} {path : List Step}
    (h : policy.redacts depth keyHint (.arr items) = false) :
    shownAt policy depth keyHint (.arr items) (.index index :: path) =
      items[index]?.bind (shownAt policy (depth + 1) keyHint · path) := by
  rw [shownAt, h]
  rfl

/-- A copy of a node that is shown has its shape, but for a member named `__proto__`. -/
lemma sameShape_walk {value : Json N} (hu : uniqueKeys value = true)
    (hredacts : policy.redacts depth keyHint value = false)
    (h : ∀ members, value = .obj members → js "__proto__" ∉ keys members) :
    SameShape value (walk policy depth keyHint value) := by
  cases value with
  | obj members =>
    rw [walk_obj hredacts]
    intro key
    rw [mem_keys_iff, mem_keys_iff, get_walked (uniqueKeys_obj.mp hu).1]
    by_cases hkey : key = js "__proto__"
    · have habsent : InsertionMap.get members key = none := by
        rw [get_eq_none, hkey]
        exact h members rfl
      simp [hkey, ← hkey ▸ habsent]
    · simp [hkey]
  | arr items =>
    rw [walk_arr hredacts]
    exact (List.length_map _).symm
  | _ => simp [walk, hredacts, SameShape]

/-- Where no member named `__proto__` is shown, the copy keeps what is shown. -/
lemma keepsStructure_walk {value : Json N} (hu : uniqueKeys value = true)
    (h : ShowsNoProto policy depth keyHint value) :
    KeepsStructure policy depth keyHint value (walk policy depth keyHint value) := by
  intro path node hnode
  induction path generalizing value depth keyHint with
  | nil =>
    obtain ⟨hredacts, rfl⟩ := shownAt_nil hnode
    refine ⟨_, rfl, sameShape_walk hu hredacts ?_⟩
    rintro members rfl
    exact h [] members hnode
  | cons step path ih =>
    have hredacts := shownAt_cons hnode
    have hshown : shownAt policy depth keyHint value [] = some value := by
      rw [shownAt, hredacts]
      rfl
    cases value with
    | obj members =>
      cases step with
      | index index => simp [shownAt, hredacts] at hnode
      | key key =>
        rw [shownAt_key hredacts, Option.bind_eq_some_iff] at hnode
        obtain ⟨child, hchild, hnode⟩ := hnode
        have hproto : key ≠ js "__proto__" := by
          rintro rfl
          exact h [] members hshown (mem_keys_of_get hchild)
        have hbelow : ShowsNoProto policy (depth + 1) (some key) child := by
          intro path' members' hpath'
          refine h (.key key :: path') members' ?_
          rw [shownAt_key hredacts, hchild]
          exact hpath'
        obtain ⟨node', hnode', hshape⟩ :=
          ih ((uniqueKeys_obj.mp hu).2 _ (mem_of_get hchild)) hbelow hnode
        refine ⟨node', ?_, hshape⟩
        rw [walk_obj hredacts, nodeAt, get_walked (uniqueKeys_obj.mp hu).1, if_neg hproto, hchild]
        exact hnode'
    | arr items =>
      cases step with
      | key key => simp [shownAt, hredacts] at hnode
      | index index =>
        rw [shownAt_index hredacts, Option.bind_eq_some_iff] at hnode
        obtain ⟨child, hchild, hnode⟩ := hnode
        have hbelow : ShowsNoProto policy (depth + 1) keyHint child := by
          intro path' members' hpath'
          refine h (.index index :: path') members' ?_
          rw [shownAt_index hredacts, hchild]
          exact hpath'
        obtain ⟨node', hnode', hshape⟩ :=
          ih (uniqueKeys_arr.mp hu _ (List.mem_of_getElem? hchild)) hbelow hnode
        refine ⟨node', ?_, hshape⟩
        rw [walk_arr hredacts, nodeAt, List.getElem?_map, hchild]
        exact hnode'
    | _ => cases step <;> simp [shownAt, hredacts] at hnode

lemma showsNoProto_of_keepsStructure {value : Json N} (hu : uniqueKeys value = true)
    (h : KeepsStructure policy depth keyHint value (walk policy depth keyHint value)) :
    ShowsNoProto policy depth keyHint value := by
  intro path members hmembers hproto
  obtain ⟨node, hnode, hshape⟩ := h path _ hmembers
  cases node with
  | obj members' => exact noProto_walk hu hnode ((hshape _).mp hproto)
  | _ => simp [SameShape] at hshape

end Structure

section Idempotence

variable {policy : Policy} {depth : ℕ} {keyHint : Option JsString}

lemma enumerationOrder_idem {α : Type} (members : List (JsString × α)) :
    enumerationOrder (enumerationOrder members) = enumerationOrder members := by
  have hindices : ∀ m ∈ sortBy (fun m => decimalValue m.1)
      (members.filter (fun m => isArrayIndex m.1)), isArrayIndex m.1 = true := by
    intro m hm
    exact (List.mem_filter.mp (mem_sortBy.mp hm)).2
  have hsorted : sortBy (fun m : JsString × α => decimalValue m.1)
      (sortBy (fun m => decimalValue m.1) (members.filter (fun m => isArrayIndex m.1))) =
        sortBy (fun m => decimalValue m.1) (members.filter (fun m => isArrayIndex m.1)) :=
    (sortBy_pairwise _ _).insertionSort_eq
  have hnone : (members.filter (fun m => !isArrayIndex m.1)).filter (fun m => isArrayIndex m.1) =
      [] := by
    simp [List.filter_filter]
  have hnone' : (sortBy (fun m => decimalValue m.1)
      (members.filter (fun m => isArrayIndex m.1))).filter (fun m => !isArrayIndex m.1) = [] := by
    rw [List.filter_eq_nil_iff]
    intro m hm
    simp [hindices m hm]
  unfold enumerationOrder
  rw [List.filter_append, List.filter_append, List.filter_eq_self.mpr hindices, hnone, hnone',
    List.append_nil, hsorted, List.nil_append, List.filter_filter]
  simp

/-- Assigning the members of an assigned object again changes nothing. -/
lemma assignAll_idem {entries : List (JsString × Json N)} (h : (entries.map Prod.fst).Nodup) :
    assignAll (assignAll entries) = assignAll entries := by
  have hkept : (assignAll entries).filter (fun e => e.1 ≠ js "__proto__") = assignAll entries := by
    rw [List.filter_eq_self]
    intro e he
    exact (List.mem_filter.mp ((assignAll_perm h).mem_iff.mp he)).2
  have hentries : (((entries.filter (fun e => e.1 ≠ js "__proto__"))).map Prod.fst).Nodup :=
    h.sublist (List.filter_sublist.map _)
  rw [assignAll, hkept, ofEntries, foldl_set_of_nodup _ [] (by simpa using nodup_assignAll h),
    List.nil_append, assignAll, ofEntries, foldl_set_of_nodup _ [] (by simpa using hentries),
    List.nil_append, enumerationOrder_idem]

lemma walk_redacted : walk policy depth keyHint (.str REDACTED : Json N) = .str REDACTED := by
  simp [walk]

/-- A copy is copied as it is. -/
lemma walk_idem {value : Json N} (hu : uniqueKeys value = true) :
    walk policy depth keyHint (walk policy depth keyHint value) =
      walk policy depth keyHint value := by
  induction value generalizing depth keyHint with
  | arr items ih =>
    cases hredacts : policy.redacts depth keyHint (.arr items) with
    | true => rw [walk_of_redacts hredacts, walk_redacted]
    | false =>
      have hsame : policy.redacts depth keyHint
          (.arr (items.map (walk policy (depth + 1) keyHint))) = false :=
        (redacts_congr rfl).trans hredacts
      rw [walk_arr hredacts, walk_arr hsame, List.map_map]
      congr 1
      apply List.map_congr_left
      intro item hitem
      exact ih item hitem (uniqueKeys_arr.mp hu item hitem)
  | obj members ih =>
    cases hredacts : policy.redacts depth keyHint (.obj members) with
    | true => rw [walk_of_redacts hredacts, walk_redacted]
    | false =>
      have hkeys : ((walkMembers policy (depth + 1) members).map Prod.fst).Nodup := by
        rw [keys_walkMembers]
        exact (uniqueKeys_obj.mp hu).1
      have hcopied : walkMembers policy (depth + 1)
          (assignAll (walkMembers policy (depth + 1) members)) =
            assignAll (walkMembers policy (depth + 1) members) := by
        rw [walkMembers_eq (assignAll _), List.map_congr_left (g := id), List.map_id]
        intro e he
        have he := (List.mem_filter.mp ((assignAll_perm hkeys).mem_iff.mp he)).1
        rw [walkMembers_eq] at he
        obtain ⟨m, hm, rfl⟩ := List.mem_map.mp he
        simp only [id_eq, Prod.mk.injEq, true_and]
        exact ih m hm ((uniqueKeys_obj.mp hu).2 m hm)
      have hsame : policy.redacts depth keyHint
          (.obj (assignAll (walkMembers policy (depth + 1) members))) = false :=
        (redacts_congr rfl).trans hredacts
      rw [walk_obj hredacts, walk_obj hsame, hcopied, assignAll_idem hkeys]
  | _ =>
    simp only [walk]
    split_ifs with hredacts
    · exact walk_redacted
    · simp [walk, hredacts]

end Idempotence

section Result

variable (toLowerCase : JsString → JsString)

/-- Trees that differ under secret keys only have the same copy, copies are copied as they are, and
a copy keeps what is shown exactly if no object that is shown has a member named `__proto__`. -/
theorem redactConfig_spec (options : RedactOptions) (value : JsonValue N) :
    ((∀ other : JsonValue N,
        SecretsDiffer (policyOf toLowerCase options) value.json other.json →
          redactConfig toLowerCase options value.json =
            redactConfig toLowerCase options other.json) ∧
      KeepsStructure (policyOf toLowerCase options) 0 none value.json
        (redactConfig toLowerCase options value.json) ∧
      redactConfig toLowerCase options (redactConfig toLowerCase options value.json) =
        redactConfig toLowerCase options value.json) ↔
      ShowsNoProto (policyOf toLowerCase options) 0 none value.json := by
  constructor
  · rintro ⟨-, hkeeps, -⟩
    exact showsNoProto_of_keepsStructure value.unique hkeeps
  · intro hshows
    refine ⟨?_, keepsStructure_walk value.unique hshows, walk_idem value.unique⟩
    intro other hdiffer
    exact walk_eq_of_secretsDiffer hdiffer 0 none

/-- An object that is shown loses its member named `__proto__`. -/
theorem proto_member_vanishes :
    ¬ KeepsStructure (policyOf id ⟨none, none⟩) 0 none
      (.obj [(js "__proto__", .bool true)] : Json ℕ)
      (redactConfig id ⟨none, none⟩ (.obj [(js "__proto__", .bool true)])) := by
  intro h
  have hunique : uniqueKeys (.obj [(js "__proto__", .bool true)] : Json ℕ) = true := by
    decide +kernel
  have hshown : shownAt (policyOf id ⟨none, none⟩) 0 none
      (.obj [(js "__proto__", .bool true)] : Json ℕ) [] =
        some (.obj [(js "__proto__", .bool true)]) := if_neg (by decide +kernel)
  exact showsNoProto_of_keepsStructure hunique h [] _ hshown (by decide +kernel)

end Result

end Appspine.Diagnostics
