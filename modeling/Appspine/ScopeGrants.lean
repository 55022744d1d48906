import Appspine.McpRequestState

/-!
# Scopes of API keys

The matcher that the guard and the tool registry share, and the guard. The matcher reads two
parts of a required scope and drops what follows, so it is exact on scopes with one colon only.
-/
namespace Appspine.ApiKeys
open JsText Mcp

section Source

def wildcard : JsString := js "*"

def isModuleUnit (u : CodeUnit) : Bool :=
  decide ((97 ≤ u.val ∧ u.val ≤ 122) ∨ (48 ≤ u.val ∧ u.val ≤ 57) ∨ u = unit '_' ∨ u = unit '-')

/-- `SCOPE_PATTERN`, of the form `[a-z0-9_-]+:(read|write|call|\*)`. -/
def isScope (s : JsString) : Bool :=
  match breakAt (unit ':') s with
  | (resource, some action) =>
    decide (resource ≠ []) && resource.all isModuleUnit &&
      [js "read", js "write", js "call", wildcard].contains action
  | _ => false

/-- The scopes that `validateScopes` names in its error. -/
def invalidScopes (scopes : List JsString) : List JsString :=
  scopes.filter fun s => decide (s ≠ wildcard) && !isScope s

def matchScope (grantedScopes : List JsString) (requiredScope : JsString) : Bool :=
  if wildcard ∈ grantedScopes then true else
  let (reqModule, reqAction) := scopeParts requiredScope
  grantedScopes.any fun g =>
    if g = wildcard then true else
    let (gModule, gAction) := scopeParts g
    if gModule ≠ reqModule then false else
    decide (gAction = some wildcard) || decide (gAction = reqAction)

/-- What the guard reads of `request.user`. -/
structure RequestUser where
  isApiKey : Option Bool
  scopes : Option (List JsString)

inductive ScopeError where
  | forbidden (message : JsString)
  deriving DecidableEq

def noScopesDeclared : ScopeError :=
  .forbidden (js "This route declares no API key scopes; API key access is denied by default")

def insufficientScopes : ScopeError := .forbidden (js "Insufficient API key scopes")

/-- The metadata of the handler, else that of the class. -/
def declaredScopes (onHandler onClass : Option (List JsString)) : List JsString :=
  (onHandler.or onClass).getD []

def canActivate (onHandler onClass : Option (List JsString)) (user : Option RequestUser) :
    Except ScopeError Bool :=
  let required := declaredScopes onHandler onClass
  if user.bind RequestUser.isApiKey ≠ some true then .ok true
  else if required = [] then .error noScopesDeclared
  else
    let granted := (user.bind RequestUser.scopes).getD []
    if required.all (matchScope granted) then .ok true else .error insufficientScopes

end Source

section Intent

/-- The scope of an action on a resource. -/
def scopeOf (resource action : JsString) : JsString := resource ++ unit ':' :: action

/-- What a list of granted scopes is meant to grant. -/
def Grants (granted : List JsString) (required : JsString) : Prop :=
  wildcard ∈ granted ∨ required ∈ granted ∨
    ∃ resource action, required = scopeOf resource action ∧ unit ':' ∉ resource ∧
      unit ':' ∉ action ∧ scopeOf resource wildcard ∈ granted

/-- A route is open to a key when it declares scopes, and each is scope-free or granted. -/
def Opens (granted declared : List JsString) : Prop :=
  declared ≠ [] ∧ ∀ required ∈ declared, required = wildcard ∨ Grants granted required

/-- A required scope of another form than `resource:action` whose first two parts, as far as it
has them, are granted. -/
def GrantsFront (granted : List JsString) (required : JsString) : Prop :=
  required.count (unit ':') ≠ 1 ∧
    (scopeOf (scopeParts required).1 wildcard ∈ granted ∨
      ∃ action, (scopeParts required).2 = some action ∧
        scopeOf (scopeParts required).1 action ∈ granted)

/-- Of the declared scopes that are not granted, one is not the wildcard and one is not granted
in front either, unless all are granted. -/
def GuardExact (granted declared : List JsString) : Prop :=
  (∃ required ∈ declared, ¬ Grants granted required) →
    (∃ required ∈ declared, ¬ Grants granted required ∧ required ≠ wildcard) ∧
      ∃ required ∈ declared, ¬ Grants granted required ∧ ¬ GrantsFront granted required

end Intent

section Parts

variable {resource action required : JsString}

/-- A text breaks at its first separator. -/
lemma breakAt_eq (c : CodeUnit) (s : JsString) :
    (c ∉ s ∧ breakAt c s = (s, none)) ∨
      ∃ front rest, c ∉ front ∧ s = front ++ c :: rest ∧ breakAt c s = (front, some rest) := by
  by_cases h : c ∈ s
  · obtain ⟨front, rest, rfl, hfront⟩ := List.eq_append_cons_of_mem h
    exact .inr ⟨front, rest, hfront, rfl, breakAt_append hfront⟩
  · exact .inl ⟨h, breakAt_fst_of_notMem h⟩

lemma count_scopeOf (hresource : unit ':' ∉ resource) (haction : unit ':' ∉ action) :
    (scopeOf resource action).count (unit ':') = 1 := by
  simp [scopeOf, List.count_eq_zero_of_not_mem hresource, List.count_eq_zero_of_not_mem haction]

lemma scopeParts_scopeOf (hresource : unit ':' ∉ resource) (haction : unit ':' ∉ action) :
    scopeParts (scopeOf resource action) = (resource, some action) := by
  simp [scopeParts, scopeOf, breakAt_append hresource, breakAt_fst_of_notMem haction]

lemma notMem_scopeParts_fst : unit ':' ∉ (scopeParts required).1 := by
  rcases breakAt_eq (unit ':') required with ⟨h, heq⟩ | ⟨front, rest, h, -, heq⟩
  · simpa [scopeParts, heq] using h
  · simpa [scopeParts, heq] using h

lemma notMem_scopeParts_snd (h : (scopeParts required).2 = some action) :
    unit ':' ∉ action := by
  unfold scopeParts at h
  obtain ⟨rest, -, rfl⟩ := Option.map_eq_some_iff.mp h
  rcases breakAt_eq (unit ':') rest with ⟨h, heq⟩ | ⟨front, rest', h, -, heq⟩
  · simpa [heq] using h
  · simpa [heq] using h

/-- A required scope with one colon is its two parts. -/
lemma eq_scopeOf_of_count (h : required.count (unit ':') = 1) :
    ∃ resource action, unit ':' ∉ resource ∧ unit ':' ∉ action ∧
      required = scopeOf resource action := by
  obtain ⟨front, rest, rfl, hfront⟩ := List.eq_append_cons_of_mem
    (List.count_pos_iff.mp (by omega : 0 < required.count (unit ':')))
  refine ⟨front, rest, hfront, ?_, rfl⟩
  rw [List.count_append, List.count_eq_zero_of_not_mem hfront, List.count_cons_self] at h
  exact List.count_eq_zero.mp (by omega)

lemma eq_scopeOf_of_isScope {s : JsString} (h : isScope s = true) :
    ∃ resource action, unit ':' ∉ resource ∧ unit ':' ∉ action ∧ s = scopeOf resource action := by
  unfold isScope at h
  rcases breakAt_eq (unit ':') s with ⟨-, heq⟩ | ⟨front, rest, hfront, rfl, heq⟩
  · rw [heq] at h
    cases h
  · rw [heq] at h
    simp only [Bool.and_eq_true, List.contains_iff_mem] at h
    refine ⟨front, rest, hfront, ?_, rfl⟩
    have hactions : ∀ action ∈ [js "read", js "write", js "call", wildcard],
        unit ':' ∉ action := by decide
    exact hactions rest h.2

end Parts

section Matching

variable {granted : List JsString} {required : JsString}

lemma mem_valid (hvalid : invalidScopes granted = []) {g : JsString} (hg : g ∈ granted) :
    g = wildcard ∨ isScope g = true := by
  have h := List.filter_eq_nil_iff.mp hvalid g hg
  simp only [Bool.and_eq_true, decide_eq_true_eq, Bool.not_eq_true', not_and,
    Bool.not_eq_false] at h
  by_cases hw : g = wildcard
  · exact .inl hw
  · exact .inr (h hw)

/-- Without the wildcard among them, the granted scopes match on two parts. -/
lemma matchScope_iff_front (hvalid : invalidScopes granted = []) (hw : wildcard ∉ granted) :
    matchScope granted required = true ↔
      scopeOf (scopeParts required).1 wildcard ∈ granted ∨
        ∃ action, (scopeParts required).2 = some action ∧
          scopeOf (scopeParts required).1 action ∈ granted := by
  have hcolon : unit ':' ∉ wildcard := by decide
  have hfst : unit ':' ∉ (scopeParts required).1 := notMem_scopeParts_fst
  simp only [matchScope, if_neg hw, List.any_eq_true]
  constructor
  · rintro ⟨g, hg, hmatch⟩
    have hne : g ≠ wildcard := fun h => hw (h ▸ hg)
    obtain ⟨resource, action, hresource, haction, rfl⟩ :=
      eq_scopeOf_of_isScope ((mem_valid hvalid hg).resolve_left hne)
    rw [if_neg hne, scopeParts_scopeOf hresource haction] at hmatch
    split_ifs at hmatch with hsame
    have hsame' : resource = (scopeParts required).1 := not_not.mp hsame
    simp only [Bool.or_eq_true, decide_eq_true_eq, Option.some.injEq] at hmatch
    rcases hmatch with rfl | h
    · exact .inl (hsame' ▸ hg)
    · exact .inr ⟨action, h.symm, hsame' ▸ hg⟩
  · have hself : ∀ action, unit ':' ∉ action → scopeOf (scopeParts required).1 action ∈ granted →
        (action = wildcard ∨ some action = (scopeParts required).2) →
        ∃ g ∈ granted, (if g = wildcard then true else
          if (scopeParts g).1 ≠ (scopeParts required).1 then false else
          decide ((scopeParts g).2 = some wildcard) ||
            decide ((scopeParts g).2 = (scopeParts required).2)) = true := by
      intro action haction hg h
      refine ⟨_, hg, ?_⟩
      have hne : scopeOf (scopeParts required).1 action ≠ wildcard := fun h => hw (h ▸ hg)
      rw [if_neg hne, scopeParts_scopeOf hfst haction]
      simpa using h
    rintro (hg | ⟨action, hsnd, hg⟩)
    · exact hself wildcard hcolon hg (.inl rfl)
    · exact hself action (notMem_scopeParts_snd hsnd) hg (.inr hsnd.symm)

lemma matchScope_of_wildcard (hw : wildcard ∈ granted) : matchScope granted required = true := by
  simp [matchScope, hw]

/-- The matcher grants what is meant to be granted and what is granted in front. -/
theorem matchScope_iff (hvalid : invalidScopes granted = []) :
    matchScope granted required = true ↔
      Grants granted required ∨ GrantsFront granted required := by
  by_cases hw : wildcard ∈ granted
  · simp [matchScope_of_wildcard hw, Grants, hw]
  rw [matchScope_iff_front hvalid hw]
  have hcolon : unit ':' ∉ wildcard := by decide
  by_cases hcount : required.count (unit ':') = 1
  · obtain ⟨resource, action, hresource, haction, rfl⟩ := eq_scopeOf_of_count hcount
    rw [scopeParts_scopeOf hresource haction]
    constructor
    · rintro (h | ⟨action', heq, h⟩)
      · exact .inl (.inr (.inr ⟨resource, action, rfl, hresource, haction, h⟩))
      · cases heq
        exact .inl (.inr (.inl h))
    · rintro ((h | h | ⟨resource', action', heq, hresource', -, h⟩) | h)
      · exact absurd h hw
      · exact .inr ⟨action, rfl, h⟩
      · obtain ⟨rfl, -⟩ := append_cons_inj hresource hresource' heq
        exact .inl h
      · exact absurd hcount h.1
  · constructor
    · exact fun h => .inr ⟨hcount, h⟩
    · rintro ((h | h | ⟨resource, action, rfl, hresource, haction, -⟩) | h)
      · exact absurd h hw
      · rcases mem_valid hvalid h with rfl | hscope
        · exact absurd h hw
        · obtain ⟨resource, action, hresource, haction, rfl⟩ := eq_scopeOf_of_isScope hscope
          exact absurd (count_scopeOf hresource haction) hcount
      · exact absurd (count_scopeOf hresource haction) hcount
      · exact h.2

/-- What is granted in front only is not meant to be granted. -/
lemma not_grants_of_grantsFront (hvalid : invalidScopes granted = []) (hw : wildcard ∉ granted)
    (hfront : GrantsFront granted required) : ¬ Grants granted required := by
  rintro (h | h | ⟨resource, action, rfl, hresource, haction, -⟩)
  · exact hw h
  · rcases mem_valid hvalid h with rfl | hscope
    · exact hw h
    · obtain ⟨resource, action, hresource, haction, rfl⟩ := eq_scopeOf_of_isScope hscope
      exact hfront.1 (count_scopeOf hresource haction)
  · exact hfront.1 (count_scopeOf hresource haction)

lemma not_grantsFront_wildcard (hvalid : invalidScopes granted = []) :
    ¬ GrantsFront granted wildcard := by
  have hparts : scopeParts wildcard = (wildcard, none) := by decide
  rintro ⟨-, h | ⟨action, heq, -⟩⟩
  · rw [hparts] at h
    rcases mem_valid hvalid h with h | h
    · exact absurd h (by decide)
    · exact absurd h (by decide)
  · rw [hparts] at heq
    cases heq

/-- The tool registry's own fallback is the guard's matcher. -/
lemma matchesScope_none (granted : List JsString) (required : JsString) :
    matchesScope none granted required = matchScope granted required := by
  by_cases hw : wildcard ∈ granted
  · simp [matchesScope, matchScope, hw, show js "*" ∈ granted from hw]
  · have hne : ∀ g ∈ granted, g ≠ wildcard := fun g hg h => hw (h ▸ hg)
    rw [Bool.eq_iff_iff]
    simp only [matchesScope, matchScope, List.any_eq_true, Bool.or_eq_true,
      show js "*" = wildcard from rfl, decide_eq_true_eq, hw, false_or, if_false,
      Bool.and_eq_true]
    refine exists_congr fun g => and_congr_right fun hg => ?_
    rw [if_neg (hne g hg)]
    by_cases hsame : (scopeParts g).1 = (scopeParts required).1 <;> simp [hsame]

end Matching

section Guard

variable {granted : List JsString} {onHandler onClass : Option (List JsString)}

lemma canActivate_iff {scopes : Option (List JsString)} :
    canActivate onHandler onClass (some ⟨some true, scopes⟩) = .ok true ↔
      declaredScopes onHandler onClass ≠ [] ∧
        ∀ required ∈ declaredScopes onHandler onClass,
          matchScope (scopes.getD []) required = true := by
  simp only [canActivate, Option.bind_some, ne_eq, not_true_eq_false, if_false]
  split_ifs with hnone hall
  · simp [hnone]
  · simpa [hnone] using hall
  · simpa [hnone] using hall

/-- The guard opens what it is meant to open exactly when the ungranted scopes of the route are
neither all the wildcard nor all granted in front. -/
lemma guard_exact_iff (hvalid : invalidScopes granted = []) (declared : List JsString) :
    ((declared ≠ [] ∧ ∀ required ∈ declared, matchScope granted required = true) ↔
      Opens granted declared) ↔ GuardExact granted declared := by
  simp only [matchScope_iff hvalid]
  constructor
  · intro hsame ⟨req, hreq, hnot⟩
    have hne : declared ≠ [] := List.ne_nil_of_mem hreq
    constructor
    · by_contra hall
      push Not at hall
      have hopens : Opens granted declared := by
        refine ⟨hne, fun r hr => ?_⟩
        by_cases hgrants : Grants granted r
        · exact .inr hgrants
        · exact .inl (hall r hr hgrants)
      have hfront := ((hsame.mpr hopens).2 req hreq).resolve_left hnot
      rw [hall req hreq hnot] at hfront
      exact not_grantsFront_wildcard hvalid hfront
    · by_contra hall
      push Not at hall
      have hpass : declared ≠ [] ∧
          ∀ r ∈ declared, Grants granted r ∨ GrantsFront granted r := by
        refine ⟨hne, fun r hr => ?_⟩
        by_cases hgrants : Grants granted r
        · exact .inl hgrants
        · exact .inr (hall r hr hgrants)
      have hwild := ((hsame.mp hpass).2 req hreq).resolve_right hnot
      have hfront := hall req hreq hnot
      rw [hwild] at hfront
      exact not_grantsFront_wildcard hvalid hfront
  · intro hexact
    by_cases hex : ∃ required ∈ declared, ¬ Grants granted required
    · obtain ⟨⟨r, hr, hnot, hne⟩, r', hr', hnot', hfront'⟩ := hexact hex
      constructor
      · exact fun h => absurd ((h.2 r' hr').resolve_left hnot') hfront'
      · exact fun h => absurd ((h.2 r hr).resolve_right hnot) hne
    · push Not at hex
      constructor
      · exact fun h => ⟨h.1, fun r hr => .inr (hex r hr)⟩
      · exact fun h => ⟨h.1, fun r hr => .inl (hex r hr)⟩

/-- The matchers are exact on a required scope unless it is granted in front without the
wildcard, and the guard unless that, or the bare wildcard, is what decides. -/
theorem scope_decisions_iff (granted : List JsString) (hvalid : invalidScopes granted = []) :
    (∀ required : JsString,
      ((matchScope granted required = true ↔ Grants granted required) ∧
        (matchesScope none granted required = true ↔ Grants granted required)) ↔
      (wildcard ∈ granted ∨ ¬ GrantsFront granted required)) ∧
    ∀ (onHandler onClass : Option (List JsString)) (scopes : Option (List JsString)),
      scopes.getD [] = granted →
      ((canActivate onHandler onClass (some ⟨some true, scopes⟩) = .ok true ↔
        Opens granted (declaredScopes onHandler onClass)) ↔
      GuardExact granted (declaredScopes onHandler onClass)) := by
  constructor
  · intro required
    rw [matchesScope_none, and_self, matchScope_iff hvalid]
    constructor
    · intro hsame
      by_cases hw : wildcard ∈ granted
      · exact .inl hw
      · exact .inr fun hfront => not_grants_of_grantsFront hvalid hw hfront
          (hsame.mp (.inr hfront))
    · rintro (hw | hfront)
      · simp [Grants, hw]
      · simp [hfront]
  · rintro onHandler onClass scopes rfl
    rw [canActivate_iff]
    exact guard_exact_iff hvalid _

theorem scope_decisions_users_read :
    invalidScopes [js "users:read"] = [] ∧
    (∀ required : JsString,
      ((matchScope [js "users:read"] required = true ↔ Grants [js "users:read"] required) ∧
        (matchesScope none [js "users:read"] required = true ↔
          Grants [js "users:read"] required)) ↔
      (wildcard ∈ [js "users:read"] ∨ ¬ GrantsFront [js "users:read"] required)) :=
  ⟨by decide, (scope_decisions_iff [js "users:read"] (by decide)).1⟩

/-- A key for reading users passes for `users:read:all`, and is turned away from a route that is
declared scope-free. -/
theorem users_read_misjudged :
    invalidScopes [js "users:read"] = [] ∧
    (matchScope [js "users:read"] (js "users:read:all") = true ∧
      ¬ Grants [js "users:read"] (js "users:read:all")) ∧
    canActivate (some [wildcard]) none (some ⟨some true, some [js "users:read"]⟩) =
      .error insufficientScopes ∧
    Opens [js "users:read"] (declaredScopes (some [wildcard]) none) := by
  refine ⟨by decide, ⟨by decide, ?_⟩, by decide, ⟨by decide, ?_⟩⟩
  · exact not_grants_of_grantsFront (by decide) (by decide)
      ⟨by decide, .inr ⟨js "read", by decide, by decide⟩⟩
  · intro required hrequired
    exact .inl (List.mem_singleton.mp hrequired)

end Guard

end Appspine.ApiKeys
