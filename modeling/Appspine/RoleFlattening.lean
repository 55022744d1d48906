import Appspine.InsertionMap
import Appspine.JsText

/-!
# Role flattening and the permission guard

The rows of a principal's roles are flattened into one policy and one list of permissions, and
the guard reads only those. What the guard lets through for several roles is what it lets
through for some one of them.
-/
namespace Appspine.Rbac
open JsText InsertionMap

section Source

structure RoleGrant where
  name : JsString
  permissionPolicy : JsString
  permissions : List JsString
  deriving DecidableEq

structure UserContext where
  roleNames : List JsString
  permissionPolicy : JsString
  permissions : List JsString
  deriving DecidableEq

def SYSTEM_ADMIN_ROLE : JsString := js "ADMIN"

def DENY_ALL : JsString := js "DENY_ALL"

def READ_ALL : JsString := js "READ_ALL"

def ALLOW_ALL : JsString := js "ALLOW_ALL"

/-- What the table gives for a policy. Under a name it lacks, those of `Object.prototype`
included, there is nothing that compares as a number. -/
def POLICY_ORDER (policy : JsString) : Option ℕ :=
  if policy = ALLOW_ALL then some 2
  else if policy = READ_ALL then some 1
  else if policy = DENY_ALL then some 0
  else none

/-- `POLICY_ORDER[a] > POLICY_ORDER[b]`. -/
def isAbove (a b : JsString) : Bool :=
  match POLICY_ORDER a, POLICY_ORDER b with
  | some m, some n => decide (m > n)
  | _, _ => false

def mostPermissive (best : JsString) (roles : List RoleGrant) : JsString :=
  roles.foldl (fun best r => if isAbove r.permissionPolicy best then r.permissionPolicy else best)
    best

def buildUserContext (roles : List RoleGrant) : UserContext where
  roleNames := roles.map RoleGrant.name
  permissionPolicy := mostPermissive DENY_ALL roles
  permissions := distinct (roles.flatMap RoleGrant.permissions)

/-- What the guard reads of `request.user`. -/
structure RequestUser where
  roleNames : Option (List JsString)
  permissionPolicy : Option JsString
  permissions : Option (List JsString)

/-- A principal that carries a flattened context. -/
def UserContext.principal (context : UserContext) : RequestUser :=
  ⟨some context.roleNames, some context.permissionPolicy, some context.permissions⟩

inductive GuardError where
  | forbidden
  deriving DecidableEq

/-- The metadata of the handler, else that of the class. -/
def requiredPermissions (onHandler onClass : Option (List JsString)) : List JsString :=
  (onHandler.or onClass).getD []

/-- `p.endsWith('_READ')`. -/
def isRead (permission : JsString) : Bool := (js "_READ").isSuffixOf permission

def canActivate (onHandler onClass : Option (List JsString)) (user : Option RequestUser) :
    Except GuardError Bool :=
  let required := requiredPermissions onHandler onClass
  if required = [] then .ok true else
  match user with
  | none => .error .forbidden
  | some user =>
    if (user.roleNames.getD []).contains SYSTEM_ADMIN_ROLE then .ok true
    else if user.permissionPolicy = some ALLOW_ALL then .ok true
    else if user.permissionPolicy = some READ_ALL ∧ required.any isRead then .ok true
    else if required.any (fun p => (user.permissions.getD []).contains p) then .ok true
    else .error .forbidden

end Source

section Policies

/-- The rank of a policy, with an unknown one below all that count. -/
def rank (policy : JsString) : ℕ := (POLICY_ORDER policy).getD 0

@[simp] theorem rank_deny : rank DENY_ALL = 0 := by decide

lemma two_le_rank_iff {policy : JsString} : 2 ≤ rank policy ↔ policy = ALLOW_ALL := by
  unfold rank POLICY_ORDER
  split_ifs with hallow hread hdeny <;> simp [hallow]

lemma one_le_rank_iff {policy : JsString} :
    1 ≤ rank policy ↔ policy = ALLOW_ALL ∨ policy = READ_ALL := by
  unfold rank POLICY_ORDER
  split_ifs with hallow hread hdeny
  · simp [hallow]
  · simp [hread]
  · simp [hallow, hread]
  · simp [hallow, hread]

/-- The policies the table knows, the only ones a fold can hold. -/
def IsKnown (policy : JsString) : Prop := (POLICY_ORDER policy).isSome = true

lemma isAbove_iff {a b : JsString} (hb : IsKnown b) : isAbove a b = true ↔ rank b < rank a := by
  obtain ⟨n, hn⟩ := Option.isSome_iff_exists.mp hb
  unfold isAbove rank
  rw [hn]
  cases POLICY_ORDER a <;> simp

lemma IsKnown.of_isAbove {a b : JsString} (h : isAbove a b = true) : IsKnown a := by
  unfold isAbove at h
  unfold IsKnown
  split at h
  · simp [*]
  · cases h

/-- The fold reaches a rank exactly when it starts there or some role has it. -/
theorem le_rank_mostPermissive_iff {k : ℕ} {best : JsString} {roles : List RoleGrant}
    (hbest : IsKnown best) :
    k ≤ rank (mostPermissive best roles) ↔
      k ≤ rank best ∨ ∃ r ∈ roles, k ≤ rank r.permissionPolicy := by
  induction roles generalizing best with
  | nil => simp [mostPermissive]
  | cons r roles ih =>
    have hstep : mostPermissive best (r :: roles) = mostPermissive
      (if isAbove r.permissionPolicy best then r.permissionPolicy else best) roles := rfl
    rw [hstep, List.exists_mem_cons_iff]
    by_cases habove : isAbove r.permissionPolicy best
    · have hlt := (isAbove_iff hbest).mp habove
      rw [if_pos habove, ih (IsKnown.of_isAbove habove)]
      constructor
      · rintro (h | h)
        · exact .inr (.inl h)
        · exact .inr (.inr h)
      · rintro (h | h | h)
        · exact .inl (by omega)
        · exact .inl h
        · exact .inr h
    · have hle : rank r.permissionPolicy ≤ rank best := by
        have := mt (isAbove_iff hbest).mpr habove
        omega
      rw [if_neg habove, ih hbest]
      constructor
      · rintro (h | h)
        · exact .inl h
        · exact .inr (.inr h)
      · rintro (h | h | h)
        · exact .inl h
        · exact .inl (by omega)
        · exact .inr h

lemma le_rank_policy_iff {k : ℕ} {roles : List RoleGrant} (hk : 0 < k) :
    k ≤ rank (buildUserContext roles).permissionPolicy ↔
      ∃ r ∈ roles, k ≤ rank r.permissionPolicy := by
  have hknown : IsKnown DENY_ALL := rfl
  simp only [buildUserContext, le_rank_mostPermissive_iff hknown, rank_deny]
  constructor
  · rintro (h | h)
    · omega
    · exact h
  · exact .inr

end Policies

section Guard

variable {onHandler onClass : Option (List JsString)} {roles : List RoleGrant}

/-- The guard lets a principal with these roles through. -/
def Admits (onHandler onClass : Option (List JsString)) (roles : List RoleGrant) : Prop :=
  canActivate onHandler onClass (some (buildUserContext roles).principal) = .ok true

/-- What one role opens: everything, what asks for a read, or what it lists. -/
def Opens (r : RoleGrant) (required : List JsString) : Prop :=
  r.name = SYSTEM_ADMIN_ROLE ∨ 2 ≤ rank r.permissionPolicy ∨
    (1 ≤ rank r.permissionPolicy ∧ ∃ p ∈ required, isRead p = true) ∨
    ∃ p ∈ required, p ∈ r.permissions

/-- The guard on a flattened context, rule by rule. -/
lemma admits_iff_rules : Admits onHandler onClass roles ↔
    requiredPermissions onHandler onClass = [] ∨
      SYSTEM_ADMIN_ROLE ∈ (buildUserContext roles).roleNames ∨
      2 ≤ rank (buildUserContext roles).permissionPolicy ∨
      (1 ≤ rank (buildUserContext roles).permissionPolicy ∧
        ∃ p ∈ requiredPermissions onHandler onClass, isRead p = true) ∨
      ∃ p ∈ requiredPermissions onHandler onClass, p ∈ (buildUserContext roles).permissions := by
  rw [two_le_rank_iff, one_le_rank_iff]
  simp only [Admits, canActivate, UserContext.principal, Option.getD_some, List.contains_iff_mem,
    List.any_eq_true, Option.some.injEq]
  split_ifs with hnone hadmin hallow hread hlisted
  · simp [hnone]
  · simp [hadmin]
  · simp [hallow]
  · simp [hread.1, hread.2]
  · simp [hlisted]
  · simp only [false_iff, not_or]
    refine ⟨hnone, hadmin, hallow, ?_, hlisted⟩
    rintro ⟨h | h, hp⟩
    · exact hallow h
    · exact hread ⟨h, hp⟩

/-- The flattened context opens what some one of the roles opens. -/
lemma admits_iff_opens : Admits onHandler onClass roles ↔
    requiredPermissions onHandler onClass = [] ∨
      ∃ r ∈ roles, Opens r (requiredPermissions onHandler onClass) := by
  have hnames : SYSTEM_ADMIN_ROLE ∈ (buildUserContext roles).roleNames ↔
      ∃ r ∈ roles, r.name = SYSTEM_ADMIN_ROLE := by
    simp [buildUserContext]
  have hlisted : ∀ p, p ∈ (buildUserContext roles).permissions ↔
      ∃ r ∈ roles, p ∈ r.permissions := by
    simp [buildUserContext, mem_distinct]
  rw [admits_iff_rules, hnames, le_rank_policy_iff (by omega), le_rank_policy_iff (by omega)]
  simp only [hlisted]
  constructor
  · rintro (h | ⟨r, hr, h⟩ | ⟨r, hr, h⟩ | ⟨⟨r, hr, h⟩, hp⟩ | ⟨p, hp, r, hr, h⟩)
    · exact .inl h
    · exact .inr ⟨r, hr, .inl h⟩
    · exact .inr ⟨r, hr, .inr (.inl h)⟩
    · exact .inr ⟨r, hr, .inr (.inr (.inl ⟨h, hp⟩))⟩
    · exact .inr ⟨r, hr, .inr (.inr (.inr ⟨p, hp, h⟩))⟩
  · rintro (h | ⟨r, hr, h | h | ⟨h, hp⟩ | ⟨p, hp, h⟩⟩)
    · exact .inl h
    · exact .inr (.inl ⟨r, hr, h⟩)
    · exact .inr (.inr (.inl ⟨r, hr, h⟩))
    · exact .inr (.inr (.inr (.inl ⟨⟨r, hr, h⟩, hp⟩)))
    · exact .inr (.inr (.inr (.inr ⟨p, hp, r, hr, h⟩)))

lemma canActivate_of_not_admits (h : ¬ Admits onHandler onClass roles) :
    canActivate onHandler onClass (some (buildUserContext roles).principal) =
      .error .forbidden := by
  unfold Admits canActivate at *
  grind

/-- The guard lets several roles through exactly when one of them alone gets through, whatever
their order and repetition, and a further role takes nothing away. -/
theorem admits_roles_iff (onHandler onClass : Option (List JsString)) (roles : List RoleGrant) :
    (Admits onHandler onClass roles ↔ requiredPermissions onHandler onClass = [] ∨
      ∃ r ∈ roles, Admits onHandler onClass [r]) ∧
    (∀ others : List RoleGrant, (∀ r, r ∈ others ↔ r ∈ roles) →
      canActivate onHandler onClass (some (buildUserContext others).principal) =
        canActivate onHandler onClass (some (buildUserContext roles).principal)) ∧
    (∀ others : List RoleGrant, roles ⊆ others → Admits onHandler onClass roles →
      Admits onHandler onClass others) := by
  refine ⟨?_, ?_, ?_⟩
  · simp only [admits_iff_opens, List.mem_singleton, exists_eq_left]
    constructor
    · rintro (h | ⟨r, hr, h⟩)
      · exact .inl h
      · exact .inr ⟨r, hr, .inr h⟩
    · rintro (h | ⟨r, hr, h | h⟩)
      · exact .inl h
      · exact .inl h
      · exact .inr ⟨r, hr, h⟩
  · intro others hsame
    have hiff : Admits onHandler onClass others ↔ Admits onHandler onClass roles := by
      simp only [admits_iff_opens, hsame]
    by_cases h : Admits onHandler onClass roles
    · exact (hiff.mpr h).trans h.symm
    · rw [canActivate_of_not_admits h, canActivate_of_not_admits (mt hiff.mp h)]
  · intro others hsub h
    rw [admits_iff_opens] at h ⊢
    rcases h with h | ⟨r, hr, h⟩
    · exact .inl h
    · exact .inr ⟨r, hsub hr, h⟩

end Guard

end Appspine.Rbac
