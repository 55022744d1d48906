import Appspine.Permissions

/-!
# What a permission plan covers

Every desired permission has one operation, and every other current one is retired unless it is
retired already or lives on under an alias. An alias of the empty id is not seen, and a status is
never compared.
-/
namespace Appspine.Permissions
open JsText StableSort InsertionMap JsonText PluginManifest Resolver Commands Generate

variable {sha256Hex : JsString → JsString} {currentState currentState' : List PermissionRecord}
  {desiredState desiredState' : List DesiredPermission} {targetGeneration : ℕ}

section Accepted

/-- What is checked before there is a plan. -/
structure Reconcilable (currentState : List PermissionRecord)
    (desiredState : List DesiredPermission) (targetGeneration : ℕ) : Prop where
  generation : newestGeneration currentState ≤ targetGeneration
  ids : ∀ entry ∈ desiredState, isPermissionId entry.id = true
  once : (desiredState.map (·.id)).Nodup
  targets : ∀ entry ∈ desiredState, ∀ aliasOf, entry.aliasOf = some aliasOf →
    aliasOf ∈ currentState.map (·.id) ∧ aliasOf ≠ entry.id

lemma hasErrors_downgradeDiagnostics :
    hasErrors (downgradeDiagnostics currentState targetGeneration) = false ↔
      newestGeneration currentState ≤ targetGeneration := by
  unfold downgradeDiagnostics
  split_ifs with h
  · simp [hasErrors, diagnostic, h]
  · simpa [hasErrors] using h

lemma hasErrors_invalidPermissionId {entry : DesiredPermission} :
    hasErrors (invalidPermissionId entry) = false ↔ isPermissionId entry.id = true := by
  unfold invalidPermissionId
  split_ifs with h
  · simp [hasErrors, h]
  · simp [hasErrors, diagnostic, h]

lemma hasErrors_duplicatePermissionId {seen : List JsString} {entry : DesiredPermission} :
    hasErrors (duplicatePermissionId seen entry) = false ↔ entry.id ∉ seen := by
  unfold duplicatePermissionId
  split_ifs with h
  · simp [hasErrors, diagnostic, h]
  · simp [hasErrors, h]

lemma hasErrors_idDiagnostics {seen : List JsString} (hseen : seen.Nodup) :
    hasErrors (idDiagnostics seen desiredState) = false ↔
      (∀ entry ∈ desiredState, isPermissionId entry.id = true) ∧
        (seen ++ desiredState.map (·.id)).Nodup := by
  induction desiredState generalizing seen with
  | nil => simp [idDiagnostics, hasErrors, hseen]
  | cons entry rest ih =>
    rw [idDiagnostics, hasErrors_append, hasErrors_append, Bool.or_eq_false_iff,
      Bool.or_eq_false_iff, hasErrors_invalidPermissionId, hasErrors_duplicatePermissionId,
      List.forall_mem_cons, List.map_cons]
    have hmove : seen ++ entry.id :: rest.map (·.id) = seen ++ [entry.id] ++ rest.map (·.id) := by
      simp
    constructor
    · rintro ⟨⟨hvalid, hnew⟩, hrest⟩
      have hgrown : (seen ++ [entry.id]).Nodup :=
        hseen.append (List.nodup_singleton _) (by simpa using hnew)
      obtain ⟨hids, hnodup⟩ := (ih hgrown).mp hrest
      rw [hmove]
      exact ⟨⟨hvalid, hids⟩, hnodup⟩
    · rintro ⟨⟨hvalid, hids⟩, hnodup⟩
      rw [hmove] at hnodup
      have hgrown := (List.nodup_append.mp hnodup).1
      have hnew : entry.id ∉ seen := fun hmem =>
        (List.nodup_append.mp hgrown).2.2 _ hmem _ (List.mem_singleton_self _) rfl
      exact ⟨⟨hvalid, hnew⟩, (ih hgrown).mpr ⟨hids, hnodup⟩⟩

/-- The map of the current state has its ids for keys. -/
lemma mem_keys_currentById {id : JsString} :
    id ∈ keys (currentById currentState) ↔ id ∈ currentState.map (·.id) := by
  induction currentState using List.reverseRecOn with
  | nil => simp [currentById, keys]
  | append_singleton records record ih =>
    rw [currentById, List.foldl_append, List.foldl_cons, List.foldl_nil, mem_keys_set,
      ← currentById, ih]
    simp [or_comm, eq_comm]

lemma hasErrors_aliasDiagnostics {entry : DesiredPermission} :
    hasErrors (aliasDiagnostics (currentById currentState) entry) = false ↔
      ∀ aliasOf, entry.aliasOf = some aliasOf →
        aliasOf ∈ currentState.map (·.id) ∧ aliasOf ≠ entry.id := by
  cases halias : entry.aliasOf with
  | none => simp [aliasDiagnostics, halias, hasErrors]
  | some aliasOf =>
    have hfound : hasErrors (aliasTargetNotFound (currentById currentState) entry aliasOf) = false ↔
        aliasOf ∈ currentState.map (·.id) := by
      rw [← mem_keys_currentById, ← has_iff]
      unfold aliasTargetNotFound
      split_ifs with h
      · simp [hasErrors, h]
      · simp [hasErrors, diagnostic, h]
    have hself : hasErrors (selfAlias entry aliasOf) = false ↔ aliasOf ≠ entry.id := by
      unfold selfAlias
      split_ifs with h
      · simp [hasErrors, diagnostic, h]
      · simp [hasErrors, h]
    rw [aliasDiagnostics, halias, Option.elim_some, hasErrors_append, Bool.or_eq_false_iff, hfound,
      hself]
    simp

lemma hasErrors_reconcileDiagnostics :
    hasErrors (reconcileDiagnostics currentState desiredState targetGeneration) = false ↔
      Reconcilable currentState desiredState targetGeneration := by
  have haliases : hasErrors (desiredState.flatMap (aliasDiagnostics (currentById currentState))) =
      false ↔ ∀ entry ∈ desiredState, ∀ aliasOf, entry.aliasOf = some aliasOf →
        aliasOf ∈ currentState.map (·.id) ∧ aliasOf ≠ entry.id := by
    rw [hasErrors, List.any_flatMap, List.any_eq_false]
    exact forall₂_congr fun entry _ => by
      rw [Bool.not_eq_true]
      exact hasErrors_aliasDiagnostics
  rw [reconcileDiagnostics, hasErrors_append, hasErrors_append, Bool.or_eq_false_iff,
    Bool.or_eq_false_iff, hasErrors_downgradeDiagnostics, hasErrors_idDiagnostics List.nodup_nil,
    haliases, List.nil_append]
  constructor
  · rintro ⟨⟨hgeneration, hids, honce⟩, htargets⟩
    exact ⟨hgeneration, hids, honce, htargets⟩
  · rintro ⟨hgeneration, hids, honce, htargets⟩
    exact ⟨⟨hgeneration, hids, honce⟩, htargets⟩

/-- There is a plan exactly of what passes the checks. -/
lemma plan_eq_some {plan : PermissionPlan} :
    (reconcilePermissions sha256Hex currentState desiredState targetGeneration).plan = some plan ↔
      Reconcilable currentState desiredState targetGeneration ∧
        plan =
          { targetGeneration := targetGeneration
            ops := planOps currentState desiredState
            digest := planDigest sha256Hex targetGeneration
              (planOps currentState desiredState) } := by
  rw [← hasErrors_reconcileDiagnostics, reconcilePermissions]
  dsimp only
  split_ifs with herrors
  · simp [herrors]
  · simp [herrors, eq_comm]

lemma plan_of_no_errors
    (h : hasErrors (reconcileDiagnostics currentState desiredState targetGeneration) = false) :
    ∃ plan, (reconcilePermissions sha256Hex currentState desiredState targetGeneration).plan =
      some plan ∧ plan.ops = planOps currentState desiredState :=
  ⟨_, plan_eq_some.mpr ⟨hasErrors_reconcileDiagnostics.mp h, rfl⟩, rfl⟩

lemma newestGeneration_perm (h : currentState'.Perm currentState) :
    newestGeneration currentState' = newestGeneration currentState :=
  h.foldl_eq' (fun _ _ _ _ _ => by omega) 0

lemma Reconcilable.perm (h : Reconcilable currentState desiredState targetGeneration)
    (hcurrent : currentState'.Perm currentState) (hdesired : desiredState'.Perm desiredState) :
    Reconcilable currentState' desiredState' targetGeneration := by
  refine ⟨newestGeneration_perm hcurrent ▸ h.generation,
    fun entry hentry => h.ids entry (hdesired.mem_iff.mp hentry),
    (hdesired.map _).nodup_iff.mpr h.once, fun entry hentry aliasOf halias => ?_⟩
  obtain ⟨htarget, hself⟩ := h.targets entry (hdesired.mem_iff.mp hentry) aliasOf halias
  exact ⟨(hcurrent.map _).mem_iff.mpr htarget, hself⟩

end Accepted

section Operations

/-- The operations on what is desired. -/
def DESIRED_OPS : List JsString := [js "no-op", js "add", js "update-display", js "alias"]

def OPS : List JsString := js "retire" :: DESIRED_OPS

@[simp] lemma operationFor_id (current : Entries JsString PermissionRecord)
    (entry : DesiredPermission) : (operationFor current entry).id = entry.id := by
  unfold operationFor
  split
  · rfl
  · split
    · rfl
    · split_ifs <;> rfl

lemma operationFor_op (current : Entries JsString PermissionRecord) (entry : DesiredPermission) :
    (operationFor current entry).op ∈ DESIRED_OPS := by
  unfold operationFor
  split
  · exact show js "alias" ∈ DESIRED_OPS by decide
  · split
    · exact show js "add" ∈ DESIRED_OPS by decide
    · split_ifs
      · exact show js "update-display" ∈ DESIRED_OPS by decide
      · exact show js "no-op" ∈ DESIRED_OPS by decide

/-- An operation that depends on the record of its own id alone. -/
lemma operationFor_congr {current current' : Entries JsString PermissionRecord}
    {entry : DesiredPermission}
    (h : InsertionMap.get current' entry.id = InsertionMap.get current entry.id) :
    operationFor current' entry = operationFor current entry := by
  rw [operationFor, operationFor, h]

lemma mem_retirements {o : PermissionOp} :
    o ∈ retirements currentState desiredState ↔ ∃ record ∈ currentState,
      record.id ∉ desiredState.map (·.id) ∧
        record.id ∉ (desiredState.filterMap (·.aliasOf)).filter (· ≠ []) ∧
        record.status ≠ .retired ∧ o = .retire record.id := by
  simp only [retirements, List.mem_map, List.mem_filter, decide_eq_true_eq]
  constructor
  · rintro ⟨record, ⟨hrecord, hdesired, halias, hstatus⟩, rfl⟩
    exact ⟨record, hrecord, hdesired, halias, hstatus, rfl⟩
  · rintro ⟨record, hrecord, hdesired, halias, hstatus, rfl⟩
    exact ⟨record, ⟨hrecord, hdesired, halias, hstatus⟩, rfl⟩

lemma mem_planOps {o : PermissionOp} :
    o ∈ planOps currentState desiredState ↔
      (∃ entry ∈ desiredState, o = operationFor (currentById currentState) entry) ∨
        o ∈ retirements currentState desiredState := by
  rw [planOps, mem_sortBy, List.mem_append, List.mem_map]
  simp only [eq_comm]

lemma op_mem (o : PermissionOp) : o.op ∈ OPS := by
  cases o with
  | noOp id => exact show js "no-op" ∈ OPS by decide
  | add id displayName => exact show js "add" ∈ OPS by decide
  | updateDisplay id shown wanted => exact show js "update-display" ∈ OPS by decide
  | «alias» id aliasOf displayName => exact show js "alias" ∈ OPS by decide
  | retire id => exact show js "retire" ∈ OPS by decide

/-- What follows the second letter of an operation does not matter: no two begin alike. -/
lemma op_of_key {o o' : PermissionOp} (h : o.op ++ o.id = o'.op ++ o'.id) :
    o.op = o'.op ∧ o.id = o'.id := by
  have hlength : ∀ a ∈ OPS, 2 ≤ a.length := by decide
  have hnames : ∀ a ∈ OPS, ∀ b ∈ OPS, a.take 2 = b.take 2 → a = b := by decide
  have hlead : o.op.take 2 = o'.op.take 2 := by
    rw [← List.take_append_of_le_length (hlength _ (op_mem o)),
      ← List.take_append_of_le_length (hlength _ (op_mem o')), h]
  have hop := hnames _ (op_mem o) _ (op_mem o') hlead
  rw [hop] at h
  exact ⟨hop, List.append_cancel_left h⟩

/-- With every id desired once, an operation is known by its name and its id. -/
lemma eq_of_op_of_id (honce : (desiredState.map (·.id)).Nodup) {o o' : PermissionOp}
    (ho : o ∈ planOps currentState desiredState) (ho' : o' ∈ planOps currentState desiredState)
    (hop : o.op = o'.op) (hid : o.id = o'.id) : o = o' := by
  have hretire : js "retire" ∉ DESIRED_OPS := by decide
  rcases mem_planOps.mp ho with ⟨entry, hentry, rfl⟩ | ho
  · rcases mem_planOps.mp ho' with ⟨entry', hentry', rfl⟩ | ho'
    · rw [operationFor_id, operationFor_id] at hid
      rw [List.inj_on_of_nodup_map honce hentry hentry' hid]
    · obtain ⟨record, -, -, -, -, rfl⟩ := mem_retirements.mp ho'
      have hkept := operationFor_op (currentById currentState) entry
      rw [hop] at hkept
      exact absurd hkept hretire
  · obtain ⟨record, -, -, -, -, rfl⟩ := mem_retirements.mp ho
    rcases mem_planOps.mp ho' with ⟨entry', -, rfl⟩ | ho'
    · have hkept := operationFor_op (currentById currentState) entry'
      rw [← hop] at hkept
      exact absurd hkept hretire
    · obtain ⟨record', -, -, -, -, rfl⟩ := mem_retirements.mp ho'
      exact congrArg PermissionOp.retire hid

/-- In a state of unique ids, the map holds the records as they are. -/
lemma currentById_eq (hunique : (currentState.map (·.id)).Nodup) :
    currentById currentState = currentState.map fun record => (record.id, record) := by
  have hpairs : currentById currentState =
      (currentState.map fun record => (record.id, record)).foldl
        (fun m e => InsertionMap.set m e.1 e.2) [] := by
    rw [List.foldl_map]
    rfl
  rw [hpairs, foldl_set_of_nodup _ [] (by simpa [Function.comp_def] using hunique),
    List.nil_append]

lemma get_currentById_perm (hunique : (currentState.map (·.id)).Nodup)
    (h : currentState'.Perm currentState) (id : JsString) :
    InsertionMap.get (currentById currentState') id = InsertionMap.get (currentById currentState) id := by
  have hunique' : (currentState'.map (·.id)).Nodup := (h.map _).nodup_iff.mpr hunique
  rw [currentById_eq hunique, currentById_eq hunique']
  exact get_perm (by simpa [keys, Function.comp_def] using hunique') (h.map _) id

/-- The operations do not depend on the order of the two states. -/
lemma planOps_perm (hunique : (currentState.map (·.id)).Nodup)
    (honce : (desiredState.map (·.id)).Nodup) (hcurrent : currentState'.Perm currentState)
    (hdesired : desiredState'.Perm desiredState) :
    planOps currentState' desiredState' = planOps currentState desiredState := by
  have hops : (desiredState'.map (operationFor (currentById currentState'))).Perm
      (desiredState.map (operationFor (currentById currentState))) := by
    rw [List.map_congr_left fun entry _ =>
      operationFor_congr (get_currentById_perm hunique hcurrent entry.id)]
    exact hdesired.map _
  have hretired : (retirements currentState' desiredState').Perm
      (retirements currentState desiredState) := by
    unfold retirements
    simp only [(hdesired.map _).mem_iff, ((hdesired.filterMap _).filter _).mem_iff]
    exact (hcurrent.filter _).map _
  refine (sortBy_eq_of_perm (hops.append hretired).symm fun o ho o' ho' hkey => ?_).symm
  obtain ⟨hop, hid⟩ := op_of_key hkey
  exact eq_of_op_of_id honce (mem_sortBy.mpr ho) (mem_sortBy.mpr ho') hop hid

/-- Of values with different keys, one alone has the key of a given one. -/
lemma filter_key_of_nodup {α κ : Type} [DecidableEq κ] {key : α → κ} {xs : List α}
    (h : (xs.map key).Nodup) {x : α} (hx : x ∈ xs) : xs.filter (fun y => key y = key x) = [x] := by
  induction xs with
  | nil => exact absurd hx List.not_mem_nil
  | cons y ys ih =>
    rw [List.map_cons, List.nodup_cons] at h
    rcases List.mem_cons.mp hx with rfl | hx
    · rw [List.filter_cons_of_pos (by simp), List.filter_eq_nil_iff.mpr]
      intro z hz
      rw [decide_eq_true_eq]
      exact fun heq => h.1 (heq ▸ List.mem_map_of_mem hz)
    · rw [List.filter_cons_of_neg, ih h.2 hx]
      rw [decide_eq_true_eq]
      exact fun heq => h.1 (heq ▸ List.mem_map_of_mem hx)

lemma planOps_filter (id : JsString) :
    ((planOps currentState desiredState).filter (·.id = id)).Perm
      ((desiredState.filter (·.id = id)).map (operationFor (currentById currentState)) ++
        (retirements currentState desiredState).filter (·.id = id)) := by
  have hsplit := (sortBy_perm (fun o : PermissionOp => o.op ++ o.id)
    (desiredState.map (operationFor (currentById currentState)) ++
      retirements currentState desiredState)).filter (fun o => decide (o.id = id))
  rw [List.filter_append, List.filter_map] at hsplit
  simp only [Function.comp_def, operationFor_id] at hsplit
  exact hsplit

/-- A desired permission has the operation that is made for it, and no other. -/
lemma planOps_desired (honce : (desiredState.map (·.id)).Nodup) {entry : DesiredPermission}
    (hentry : entry ∈ desiredState) :
    (planOps currentState desiredState).filter (·.id = entry.id) =
      [operationFor (currentById currentState) entry] := by
  have hnone : (retirements currentState desiredState).filter (·.id = entry.id) = [] := by
    rw [List.filter_eq_nil_iff]
    intro o ho
    obtain ⟨record, -, hdesired, -, -, rfl⟩ := mem_retirements.mp ho
    rw [decide_eq_true_eq]
    rintro (hid : record.id = entry.id)
    exact hdesired (hid ▸ List.mem_map_of_mem hentry)
  have hsplit := @planOps_filter currentState desiredState entry.id
  rw [filter_key_of_nodup honce hentry, hnone, List.append_nil] at hsplit
  exact List.perm_singleton.mp hsplit

/-- A permission that is not desired is retired, or has no operation. -/
lemma planOps_left (hunique : (currentState.map (·.id)).Nodup) {record : PermissionRecord}
    (hrecord : record ∈ currentState) (hleft : record.id ∉ desiredState.map (·.id)) :
    (planOps currentState desiredState).filter (·.id = record.id) =
      if record.id ∉ (desiredState.filterMap (·.aliasOf)).filter (· ≠ []) ∧
        record.status ≠ .retired then [.retire record.id] else [] := by
  have hnone : desiredState.filter (·.id = record.id) = [] := by
    rw [List.filter_eq_nil_iff]
    intro entry hentry
    rw [decide_eq_true_eq]
    exact fun hid => hleft (hid ▸ List.mem_map_of_mem hentry)
  have hone : currentState.filter (fun r => r.id = record.id) = [record] :=
    filter_key_of_nodup hunique hrecord
  have hretired : (retirements currentState desiredState).filter (·.id = record.id) =
      if record.id ∉ (desiredState.filterMap (·.aliasOf)).filter (· ≠ []) ∧
        record.status ≠ .retired then [.retire record.id] else [] := by
    rw [retirements, List.filter_map, List.filter_filter]
    have hcomm : (currentState.filter fun r => ((fun o : PermissionOp => decide (o.id = record.id)) ∘
        fun r => PermissionOp.retire r.id) r && decide (r.id ∉ desiredState.map (·.id) ∧
          r.id ∉ (desiredState.filterMap (·.aliasOf)).filter (· ≠ []) ∧ r.status ≠ .retired)) =
        [record].filter fun r => decide (r.id ∉ desiredState.map (·.id) ∧
          r.id ∉ (desiredState.filterMap (·.aliasOf)).filter (· ≠ []) ∧ r.status ≠ .retired) := by
      rw [← hone, List.filter_filter]
      exact List.filter_congr fun r _ => Bool.and_comm _ _
    rw [hcomm]
    split_ifs with hcond
    · rw [List.filter_cons_of_pos (by simpa [hleft] using hcond)]
      rfl
    · rw [List.filter_cons_of_neg (by simpa [hleft] using hcond)]
      rfl
  have hsplit := @planOps_filter currentState desiredState record.id
  rw [hnone, List.map_nil, List.nil_append, hretired] at hsplit
  split_ifs at hsplit ⊢ with hcond
  · exact List.perm_singleton.mp hsplit
  · exact hsplit.eq_nil

end Operations

section Coverage

/-- One operation for every desired permission, retirement for what is left and lives on nowhere,
nothing else, and the same plan for every order of the two states. -/
structure PlanCovers (sha256Hex : JsString → JsString) (currentState : List PermissionRecord)
    (desiredState : List DesiredPermission) (targetGeneration : ℕ) (plan : PermissionPlan) : Prop where
  desired : ∀ entry ∈ desiredState, ∃ o, plan.ops.filter (·.id = entry.id) = [o] ∧
    o.op ∈ DESIRED_OPS
  left : ∀ record ∈ currentState, record.id ∉ desiredState.map (·.id) →
    plan.ops.filter (·.id = record.id) =
      if record.status = .retired ∨ ∃ entry ∈ desiredState, entry.aliasOf = some record.id then []
      else [.retire record.id]
  others : ∀ o ∈ plan.ops, o.id ∈ desiredState.map (·.id) ∨ o.id ∈ currentState.map (·.id)
  targets : ∀ id aliasOf displayName, .alias id aliasOf displayName ∈ plan.ops →
    aliasOf ∈ currentState.map (·.id)
  order : ∀ currentState' desiredState', currentState'.Perm currentState →
    desiredState'.Perm desiredState →
      (reconcilePermissions sha256Hex currentState' desiredState' targetGeneration).plan = some plan

lemma alias_of_operationFor {current : Entries JsString PermissionRecord}
    {entry : DesiredPermission} {id aliasOf : JsString} {displayName : Option JsString}
    (h : .alias id aliasOf displayName = operationFor current entry) : entry.aliasOf = some aliasOf := by
  unfold operationFor at h
  split at h
  · next target htarget =>
    obtain ⟨-, rfl, -⟩ := PermissionOp.alias.inj h
    exact htarget
  · split at h
    · cases h
    · split_ifs at h

/-- An id is aliased away when a desired permission names it and it is not empty. -/
lemma mem_aliasedAway {id : JsString} :
    id ∈ (desiredState.filterMap (·.aliasOf)).filter (· ≠ []) ↔
      id ≠ [] ∧ ∃ entry ∈ desiredState, entry.aliasOf = some id := by
  simp only [List.mem_filter, List.mem_filterMap, decide_eq_true_eq]
  exact and_comm

/-- The empty id is no permission id, so it is never desired. -/
lemma empty_not_desired (h : Reconcilable currentState desiredState targetGeneration) :
    [] ∉ desiredState.map (·.id) := by
  intro hmem
  obtain ⟨entry, hentry, hid⟩ := List.mem_map.mp hmem
  have hvalid := h.ids entry hentry
  rw [hid] at hvalid
  exact absurd hvalid (by decide)

theorem plan_covers_iff {plan : PermissionPlan} (hunique : (currentState.map (·.id)).Nodup)
    (hplan : (reconcilePermissions sha256Hex currentState desiredState targetGeneration).plan =
      some plan) :
    PlanCovers sha256Hex currentState desiredState targetGeneration plan ↔
      ∀ record ∈ currentState, record.id = [] → record.status = .retired ∨
        ∀ entry ∈ desiredState, entry.aliasOf ≠ some [] := by
  obtain ⟨haccepted, rfl⟩ := plan_eq_some.mp hplan
  constructor
  · intro hcovers record hrecord hid
    by_contra hlost
    rw [not_or] at hlost
    push Not at hlost
    obtain ⟨hstatus, entry, hentry, halias⟩ := hlost
    have hleft : record.id ∉ desiredState.map (·.id) := hid ▸ empty_not_desired haccepted
    have hnone := hcovers.left record hrecord hleft
    have hretired : .retire record.id ∈ planOps currentState desiredState := by
      refine mem_planOps.mpr (Or.inr (mem_retirements.mpr ⟨record, hrecord, hleft, ?_, hstatus, rfl⟩))
      exact fun hmem => (mem_aliasedAway.mp hmem).1 hid
    rw [if_pos (Or.inr ⟨entry, hentry, hid ▸ halias⟩), List.filter_eq_nil_iff] at hnone
    exact hnone _ hretired (decide_eq_true rfl)
  · intro hempty
    refine ⟨fun entry hentry => ⟨_, planOps_desired haccepted.once hentry, operationFor_op _ _⟩,
      fun record hrecord hleft => ?_, fun o ho => ?_, fun id aliasOf displayName ho => ?_,
      fun currentState' desiredState' hcurrent hdesired => ?_⟩
    · have hsame : (record.status = .retired ∨
          ∃ entry ∈ desiredState, entry.aliasOf = some record.id) ↔
          ¬ (record.id ∉ (desiredState.filterMap (·.aliasOf)).filter (· ≠ []) ∧
            record.status ≠ .retired) := by
        rw [mem_aliasedAway]
        constructor
        · rintro (hstatus | ⟨entry, hentry, halias⟩) ⟨haway, hactive⟩
          · exact hactive hstatus
          · by_cases hid : record.id = []
            · rcases hempty record hrecord hid with hstatus | hnone
              · exact hactive hstatus
              · exact hnone entry hentry (hid ▸ halias)
            · exact haway ⟨hid, entry, hentry, halias⟩
        · intro hkept
          by_cases hstatus : record.status = .retired
          · exact Or.inl hstatus
          · by_contra hnone
            rw [not_or] at hnone
            exact hkept ⟨fun haway => hnone.2 haway.2, hstatus⟩
      rw [planOps_left hunique hrecord hleft]
      simp only [hsame, ite_not]
    · rcases mem_planOps.mp ho with ⟨entry, hentry, rfl⟩ | ho
      · rw [operationFor_id]
        exact Or.inl (List.mem_map_of_mem hentry)
      · obtain ⟨record, hrecord, -, -, -, rfl⟩ := mem_retirements.mp ho
        exact Or.inr (List.mem_map_of_mem hrecord)
    · rcases mem_planOps.mp ho with ⟨entry, hentry, ho⟩ | ho
      · exact (haccepted.targets entry hentry aliasOf (alias_of_operationFor ho)).1
      · obtain ⟨record, -, -, -, -, ho⟩ := mem_retirements.mp ho
        cases ho
    · rw [plan_eq_some, planOps_perm hunique haccepted.once hcurrent hdesired]
      exact ⟨haccepted.perm hcurrent hdesired, rfl⟩

def permissionRecord (id displayName : JsString) (status : PermissionStatus) : PermissionRecord :=
  { id := id, displayName := displayName, status := status, schemaGeneration := some 1 }

def wanted (id displayName : JsString) (aliasOf : Option JsString) : DesiredPermission :=
  { id := id, displayName := some displayName, status := none, aliasOf := aliasOf,
    frontendOnly := none }

/-- One permission is renamed, and one leaves. -/
def renamedState : List PermissionRecord × List DesiredPermission :=
  ([permissionRecord (js "a:role:edit") (js "Edit") .active,
      permissionRecord (js "a:role:drop") (js "Drop") .active],
    [wanted (js "a:role:write") (js "Write") (some (js "a:role:edit"))])

theorem plan_covers_renamedState : ∃ plan,
    (reconcilePermissions (fun text => text) renamedState.1 renamedState.2 2).plan = some plan ∧
      plan.ops = [.alias (js "a:role:write") (js "a:role:edit") (some (js "Write")),
        .retire (js "a:role:drop")] ∧
      PlanCovers (fun text => text) renamedState.1 renamedState.2 2 plan := by
  obtain ⟨plan, hplan, hops⟩ := @plan_of_no_errors (fun text => text) renamedState.1 renamedState.2 2
    (by decide +kernel)
  refine ⟨plan, hplan, ?_, (plan_covers_iff (by decide +kernel) hplan).mpr (by decide +kernel)⟩
  rw [hops]
  decide +kernel

/-- A permission of the empty id. -/
def emptyId : List PermissionRecord × List DesiredPermission :=
  ([permissionRecord [] (js "Edit") .active], [wanted (js "a:role:write") (js "Write") (some [])])

/-- The empty id is aliased and retired in one plan. -/
theorem plan_retires_aliased : ∃ plan,
    (reconcilePermissions (fun text => text) emptyId.1 emptyId.2 2).plan = some plan ∧
      plan.ops = [.alias (js "a:role:write") [] (some (js "Write")), .retire []] ∧
      ¬ PlanCovers (fun text => text) emptyId.1 emptyId.2 2 plan := by
  obtain ⟨plan, hplan, hops⟩ := @plan_of_no_errors (fun text => text) emptyId.1 emptyId.2 2
    (by decide +kernel)
  have hplanned : planOps emptyId.1 emptyId.2 =
      [.alias (js "a:role:write") [] (some (js "Write")), .retire []] := by
    decide +kernel
  refine ⟨plan, hplan, hops.trans hplanned, fun hcovers => ?_⟩
  have hleft := hcovers.left (permissionRecord [] (js "Edit") .active) (by decide) (by decide)
  rw [hops, hplanned] at hleft
  exact absurd hleft (by decide)

end Coverage

section Statuses

/-- The record that an id has in the current state; of several, the last. -/
def currentRecord (currentState : List PermissionRecord) (id : JsString) : Option PermissionRecord :=
  InsertionMap.get (currentById currentState) id

/-- The status that is desired: active, unless the entry says retired. -/
def DesiredPermission.wantedStatus (entry : DesiredPermission) : PermissionStatus :=
  entry.status.getD .active

/-- A `no-op` stands for a record that is as desired, and a record of another status gets an
operation that changes it. -/
structure NoOpsAreIdle (currentState : List PermissionRecord) (desiredState : List DesiredPermission)
    (plan : PermissionPlan) : Prop where
  idle : ∀ entry ∈ desiredState, .noOp entry.id ∈ plan.ops →
    ∃ record, currentRecord currentState entry.id = some record ∧
      entry.displayName = some record.displayName ∧ record.status = entry.wantedStatus
  changed : ∀ entry ∈ desiredState, ∀ record, currentRecord currentState entry.id = some record →
    record.status ≠ entry.wantedStatus → ∃ o ∈ plan.ops, o.id = entry.id ∧ o.op ≠ js "no-op"

/-- There is nothing to do for what is no alias and carries its display name already. -/
lemma noOp_iff {entry : DesiredPermission} :
    operationFor (currentById currentState) entry = .noOp entry.id ↔
      entry.aliasOf = none ∧ ∃ record, currentRecord currentState entry.id = some record ∧
        entry.displayName = some record.displayName := by
  unfold operationFor currentRecord
  cases entry.aliasOf with
  | some aliasOf => simp
  | none =>
    cases InsertionMap.get (currentById currentState) entry.id with
    | none => simp
    | some record =>
      dsimp only
      split_ifs with hname
      · simp [Ne.symm hname]
      · rw [not_not] at hname
        simp [hname]

lemma op_noOp {o : PermissionOp} {id : JsString} (hop : o.op = js "no-op") (hid : o.id = id) :
    o = .noOp id := by
  cases o with
  | noOp id' => exact congrArg PermissionOp.noOp hid
  | add id' displayName => exact absurd hop (show js "add" ≠ js "no-op" by decide)
  | updateDisplay id' shown wanted =>
    exact absurd hop (show js "update-display" ≠ js "no-op" by decide)
  | «alias» id' aliasOf displayName => exact absurd hop (show js "alias" ≠ js "no-op" by decide)
  | retire id' => exact absurd hop (show js "retire" ≠ js "no-op" by decide)

lemma noOp_mem_planOps {entry : DesiredPermission} (honce : (desiredState.map (·.id)).Nodup)
    (hentry : entry ∈ desiredState) :
    .noOp entry.id ∈ planOps currentState desiredState ↔
      operationFor (currentById currentState) entry = .noOp entry.id := by
  have hone := @planOps_desired currentState desiredState honce entry hentry
  have hmem : .noOp entry.id ∈ planOps currentState desiredState ↔
      PermissionOp.noOp entry.id ∈
        (planOps currentState desiredState).filter (·.id = entry.id) := by
    rw [List.mem_filter, decide_eq_true_eq]
    exact (and_iff_left rfl).symm
  rw [hmem, hone, List.mem_singleton, eq_comm]

theorem noOps_idle_iff {plan : PermissionPlan}
    (hplan : (reconcilePermissions sha256Hex currentState desiredState targetGeneration).plan =
      some plan) :
    NoOpsAreIdle currentState desiredState plan ↔
      ∀ entry ∈ desiredState, entry.aliasOf = none →
        ∀ record, currentRecord currentState entry.id = some record →
          entry.displayName = some record.displayName → record.status = entry.wantedStatus := by
  obtain ⟨haccepted, rfl⟩ := plan_eq_some.mp hplan
  constructor
  · intro hidle entry hentry halias record hrecord hname
    have hnoOp := (noOp_mem_planOps haccepted.once hentry).mpr
      (noOp_iff.mpr ⟨halias, record, hrecord, hname⟩)
    obtain ⟨record', hrecord', -, hstatus⟩ := hidle.idle entry hentry hnoOp
    obtain rfl := Option.some.inj (hrecord.symm.trans hrecord')
    exact hstatus
  · intro hsame
    refine ⟨fun entry hentry hnoOp => ?_, fun entry hentry record hrecord hstatus => ?_⟩
    · obtain ⟨halias, record, hrecord, hname⟩ :=
        noOp_iff.mp ((noOp_mem_planOps haccepted.once hentry).mp hnoOp)
      exact ⟨record, hrecord, hname, hsame entry hentry halias record hrecord hname⟩
    · refine ⟨operationFor (currentById currentState) entry,
        mem_planOps.mpr (Or.inl ⟨entry, hentry, rfl⟩), operationFor_id _ _, fun hop => ?_⟩
      have hnoOp : operationFor (currentById currentState) entry = .noOp entry.id :=
        op_noOp hop (operationFor_id _ _)
      obtain ⟨halias, record', hrecord', hname⟩ := noOp_iff.mp hnoOp
      obtain rfl := Option.some.inj (hrecord.symm.trans hrecord')
      exact hstatus (hsame entry hentry halias record hrecord hname)

def readRecord (status : PermissionStatus) : PermissionRecord :=
  permissionRecord (js "a:role:read") (js "Read") status

def readWanted : DesiredPermission := wanted (js "a:role:read") (js "Read") none

/-- Nothing is to be done for a permission that is as it should be. -/
theorem noOps_idle_settled : ∃ plan,
    (reconcilePermissions (fun text => text) [readRecord .active] [readWanted] 1).plan = some plan ∧
      .noOp (js "a:role:read") ∈ plan.ops ∧ NoOpsAreIdle [readRecord .active] [readWanted] plan := by
  obtain ⟨plan, hplan, hops⟩ := @plan_of_no_errors (fun text => text) [readRecord .active] [readWanted]
    1 (by decide +kernel)
  have hnoOp : .noOp (js "a:role:read") ∈ planOps [readRecord .active] [readWanted] := by
    decide +kernel
  refine ⟨plan, hplan, hops ▸ hnoOp, (noOps_idle_iff hplan).mpr ?_⟩
  intro entry hentry _ r hr _
  obtain rfl := List.mem_singleton.mp hentry
  obtain rfl : readRecord .active = r :=
    Option.some.inj ((show some _ = _ by decide +kernel).trans hr)
  rfl

/-- A retired permission that is desired again stays retired. -/
theorem noOp_keeps_retired : ∃ plan,
    (reconcilePermissions (fun text => text) [readRecord .retired] [readWanted] 1).plan = some plan ∧
      plan.ops = [.noOp (js "a:role:read")] ∧
      ¬ NoOpsAreIdle [readRecord .retired] [readWanted] plan := by
  obtain ⟨plan, hplan, hops⟩ := @plan_of_no_errors (fun text => text) [readRecord .retired] [readWanted]
    1 (by decide +kernel)
  have hplanned : planOps [readRecord .retired] [readWanted] = [.noOp (js "a:role:read")] := by
    decide +kernel
  refine ⟨plan, hplan, hops.trans hplanned, fun hidle => ?_⟩
  obtain ⟨r, hr, -, hstatus⟩ := hidle.idle _ (List.mem_singleton_self _) (by
    rw [hops, hplanned]
    exact List.mem_singleton_self _)
  obtain rfl : readRecord .retired = r :=
    Option.some.inj ((show some _ = _ by decide +kernel).trans hr)
  exact absurd hstatus (by decide)

end Statuses

end Appspine.Permissions
