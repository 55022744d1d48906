import Appspine.AccessSafety

/-!
# API keys under every interleaving

A key keeps its id and its hash, has checked scopes, and comes from one call. A hash that is gone
never comes back.
-/
namespace Appspine.AccessRuns
open JsText AccessStore KeyedTable

section Effects

variable {e : Environment} {db db' : Database} {call : ℕ}

/-- The scopes that a call brings. -/
def givenScopes : Call → Option (List JsString)
  | .createApiKey dto _ => some dto.scopes
  | .updateApiKey _ dto => dto.scopes
  | _ => none

/-- The key was there with its hash; its scopes are the same, or those that the call brings. -/
def Continues (e : Environment) (call : ℕ) (db : Database) (key : ApiKey) : Prop :=
  ∃ old ∈ db.apiKeys, key.id = old.id ∧ key.hashedKey = old.hashedKey ∧
    (key.scopes = old.scopes ∨ givenScopes (e.calls call) = some key.scopes)

theorem continues_of_mem {key : ApiKey} (h : key ∈ db.apiKeys) : Continues e call db key :=
  ⟨key, h, rfl, rfl, .inl rfl⟩

theorem continues_of_update {id : JsString} {dto : UpdateApiKeyDto}
    (hcall : e.calls call = .updateApiKey id dto) (h : updateApiKey db id dto = .ok db')
    {key : ApiKey} (hkey : key ∈ db'.apiKeys) : Continues e call db key := by
  unfold updateApiKey at h
  split at h
  · cases h
  · split_ifs at h
    obtain rfl := Except.ok.inj h
    obtain ⟨old, hold, heq⟩ := mem_update.mp hkey
    split_ifs at heq
    · subst heq
      refine ⟨old, hold, rfl, rfl, ?_⟩
      cases hscopes : dto.scopes with
      | none => exact .inl (by simp [setApiKey, hscopes])
      | some scopes => exact .inr (by simp [givenScopes, hcall, setApiKey, hscopes])
    · exact heq ▸ continues_of_mem hold

/-- Where the keys come from that are there after a write. -/
theorem apiKeys_of_write (h : write e call db = .ok db') {key : ApiKey}
    (hkey : key ∈ db'.apiKeys) :
    Continues e call db key ∨ ∃ dto createdBy, e.calls call = .createApiKey dto createdBy ∧
      key = newApiKey e call dto createdBy := by
  have hsame : ∀ {other : Database}, other.apiKeys = db.apiKeys → key ∈ other.apiKeys →
      Continues e call db key := by
    intro other heq hmem
    rw [heq] at hmem
    exact continues_of_mem hmem
  have hupdate : ∀ {id : JsString} {displayName policy : Option JsString} {mid : Database},
      updateRole db id displayName policy = .ok mid → mid.apiKeys = db.apiKeys := by
    intro id displayName policy mid h
    unfold updateRole at h
    split_ifs at h
    obtain rfl := Except.ok.inj h
    rfl
  have hreplace : ∀ {id : JsString} {permissions : List JsString} {mid other : Database},
      AccessStore.replacePermissions mid id permissions = .ok other →
        other.apiKeys = mid.apiKeys := by
    intro id permissions mid other h
    unfold AccessStore.replacePermissions at h
    split_ifs at h
    obtain rfl := Except.ok.inj h
    rfl
  unfold write at h
  split at h
  · unfold AccessStore.createRole at h
    split_ifs at h
    obtain rfl := Except.ok.inj h
    exact .inl (hsame rfl hkey)
  · split at h
    · exact .inl (hsame (hupdate h) hkey)
    · obtain ⟨mid, hmid, hdb⟩ := Results.bind_eq_ok.mp h
      exact .inl (hsame ((hreplace hdb).trans (hupdate hmid)) hkey)
  · exact .inl (hsame (hreplace h) hkey)
  · unfold deleteRole at h
    split_ifs at h
    obtain rfl := Except.ok.inj h
    exact .inl (hsame rfl hkey)
  · unfold updateUser at h
    split_ifs at h
    obtain rfl := Except.ok.inj h
    exact .inl (hsame rfl hkey)
  · unfold replaceUserRoles at h
    split_ifs at h
    obtain rfl := Except.ok.inj h
    exact .inl (hsame rfl hkey)
  · unfold deleteUser at h
    split_ifs at h
    obtain rfl := Except.ok.inj h
    exact .inl (hsame rfl hkey)
  · next dto createdBy hcall =>
    unfold createApiKey at h
    split_ifs at h
    obtain rfl := Except.ok.inj h
    rcases List.mem_append.mp hkey with hold | hnew
    · exact .inl (continues_of_mem hold)
    · exact .inr ⟨dto, createdBy, hcall, List.mem_singleton.mp hnew⟩
  · next id dto hcall => exact .inl (continues_of_update hcall h hkey)
  · unfold deleteApiKey at h
    split_ifs at h
    obtain rfl := Except.ok.inj h
    exact .inl (continues_of_mem (mem_delete.mp hkey).1)

theorem removed_of_write {id : JsString} (hcall : e.calls call = .removeApiKey id)
    (h : write e call db = .ok db') :
    id ∈ db.apiKeys.map ApiKey.id ∧ id ∉ db'.apiKeys.map ApiKey.id := by
  simp only [write, hcall, deleteApiKey] at h
  split_ifs at h with hnone
  obtain rfl := Except.ok.inj h
  exact ⟨hnone, fun hmem => (mem_map_delete.mp hmem).2 rfl⟩

/-- A call past its first check brings scopes that can be granted. -/
theorem valid_of_first_check {scopes : List JsString} {read : Check}
    (hgiven : givenScopes (e.calls call) = some scopes)
    (hread : (checks (e.calls call))[0]? = some read) (hpass : read db = none) :
    ApiKeys.invalidScopes scopes = [] := by
  have hvalid : validateScopes scopes = none → ApiKeys.invalidScopes scopes = [] := by
    intro h
    unfold validateScopes at h
    split_ifs at h with hnone
    exact hnone
  cases hcall : e.calls call with
  | createApiKey dto createdBy =>
    rw [hcall] at hgiven hread
    obtain rfl := Option.some.inj hgiven
    obtain rfl := Option.some.inj hread
    exact hvalid (Option.or_eq_none_iff.mp hpass).1
  | updateApiKey id dto =>
    rw [hcall] at hgiven hread
    obtain rfl := Option.some.inj hread
    have hboth := (Option.or_eq_none_iff.mp hpass).2
    rw [show dto.scopes = some scopes from hgiven] at hboth
    exact hvalid hboth
  | _ => rw [hcall] at hgiven; cases hgiven

end Effects

section Keys

variable {e : Environment} {db₀ : Database} {s t : State}

/-- Raw keys are drawn once only, and their hashes tell them apart. -/
structure FreshKeys (e : Environment) (db₀ : Database) : Prop where
  randomHex : Function.Injective e.randomHex
  sha256 : Function.Injective e.sha256
  hashes : ∀ call, e.sha256 (rawKey e call) ∉ db₀.apiKeys.map ApiKey.hashedKey

theorem call_eq_of_hash (hfresh : FreshKeys e db₀) {call other : ℕ}
    (h : e.sha256 (rawKey e call) = e.sha256 (rawKey e other)) : call = other :=
  hfresh.randomHex (List.append_cancel_left (hfresh.sha256 h))

/-- The key was there at first, or the call that made it has written. -/
def Issued (e : Environment) (db₀ : Database) (s : State) (key : ApiKey) : Prop :=
  (∃ old ∈ db₀.apiKeys, key.id = old.id ∧ key.hashedKey = old.hashedKey) ∨
    ∃ call dto createdBy, (s.phase call).hasWritten = true ∧
      e.calls call = .createApiKey dto createdBy ∧ key.id = e.newId call ∧
      key.hashedKey = e.sha256 (rawKey e call)

/-- The id of a key that is or was there. -/
def KnownKey (e : Environment) (db₀ : Database) (s : State) (id : JsString) : Prop :=
  id ∈ db₀.apiKeys.map ApiKey.id ∨ ∃ call, (s.phase call).hasWritten = true ∧ e.newId call = id

theorem Issued.known {key : ApiKey} (h : Issued e db₀ s key) : KnownKey e db₀ s key.id := by
  rcases h with ⟨old, hold, hid, -⟩ | ⟨call, _, _, hwritten, -, hid, -⟩
  · rw [hid]
    exact .inl (List.mem_map_of_mem hold)
  · exact .inr ⟨call, hwritten, hid.symm⟩

theorem KnownKey.step (h : Step e s t) {id : JsString} (hid : KnownKey e db₀ s id) :
    KnownKey e db₀ t id :=
  hid.imp_right fun ⟨call, hwritten, heq⟩ => ⟨call, hasWritten_of_step h hwritten, heq⟩

theorem not_knownKey (hfresh : Fresh e db₀) {call : ℕ}
    (hphase : (s.phase call).hasWritten = false) : ¬ KnownKey e db₀ s (e.newId call) := by
  rintro (h | ⟨other, hwritten, heq⟩)
  · exact hfresh.apiKeys call h
  · rw [hfresh.newId heq, hphase] at hwritten
    cases hwritten

/-- The key has been removed, and is not there. -/
def Removed (e : Environment) (db₀ : Database) (s : State) (id : JsString) : Prop :=
  id ∉ s.db.apiKeys.map ApiKey.id ∧ KnownKey e db₀ s id

structure KeysIntact (e : Environment) (db₀ : Database) (s : State) : Prop where
  issued : ∀ key ∈ s.db.apiKeys, Issued e db₀ s key
  scopes : ∀ key ∈ s.db.apiKeys, ApiKeys.invalidScopes key.scopes = []
  validated : ∀ call passed scopes, s.phase call = .checking (passed + 1) →
    givenScopes (e.calls call) = some scopes → ApiKeys.invalidScopes scopes = []
  removed : ∀ call id, e.calls call = .removeApiKey id → (s.phase call).hasWritten = true →
    Removed e db₀ s id

theorem keysIntact_initial
    (hscopes : ∀ key ∈ db₀.apiKeys, ApiKeys.invalidScopes key.scopes = []) :
    KeysIntact e db₀ (initial db₀) where
  issued := fun key hkey => .inl ⟨key, hkey, rfl, rfl⟩
  scopes := hscopes
  validated := fun _ _ _ hphase _ => absurd (Phase.checking.inj hphase) (by omega)
  removed := fun _ _ _ hwritten => by cases hwritten

theorem Issued.step (h : Step e s t) {key old : ApiKey} (hid : key.id = old.id)
    (hhash : key.hashedKey = old.hashedKey) (hold : Issued e db₀ s old) : Issued e db₀ t key := by
  rcases hold with ⟨first, hfirst, hid', hhash'⟩ | ⟨call, dto, createdBy, hwritten, hrest⟩
  · exact .inl ⟨first, hfirst, hid.trans hid', hhash.trans hhash'⟩
  · exact .inr ⟨call, dto, createdBy, hasWritten_of_step h hwritten, hrest.1, hid.trans hrest.2.1,
      hhash.trans hrest.2.2⟩

/-- Phases after a step: the one that moved, and the others. -/
theorem checking_of_setPhase {call other passed : ℕ} {phase : Phase}
    (h : (s.setPhase call phase).phase other = .checking passed) :
    s.phase other = .checking passed ∨ other = call ∧ phase = .checking passed := by
  by_cases heq : other = call
  · subst heq
    rw [phase_setPhase_self] at h
    exact .inr ⟨rfl, h⟩
  · rw [phase_setPhase_ne _ _ heq] at h
    exact .inl h

theorem hasWritten_of_setPhase {call other : ℕ} {phase : Phase}
    (hphase : phase.hasWritten = true → (s.phase call).hasWritten = true)
    (h : ((s.setPhase call phase).phase other).hasWritten = true) :
    (s.phase other).hasWritten = true := by
  by_cases heq : other = call
  · subst heq
    rw [phase_setPhase_self] at h
    exact hphase h
  · rwa [phase_setPhase_ne _ _ heq] at h

/-- A step that takes its keys over from before. -/
theorem KeysIntact.of_keys (h : KeysIntact e db₀ s) (hstep : Step e s t)
    (hkeys : ∀ key ∈ t.db.apiKeys, ∃ old ∈ s.db.apiKeys, key.id = old.id ∧
      key.hashedKey = old.hashedKey ∧ key.scopes = old.scopes)
    (hvalidated : ∀ call passed scopes, t.phase call = .checking (passed + 1) →
      givenScopes (e.calls call) = some scopes → ApiKeys.invalidScopes scopes = [])
    (hwritten : ∀ call, (t.phase call).hasWritten = true → (s.phase call).hasWritten = true) :
    KeysIntact e db₀ t where
  issued := by
    intro key hkey
    obtain ⟨old, hold, hid, hhash, -⟩ := hkeys key hkey
    exact (h.issued old hold).step hstep hid hhash
  scopes := by
    intro key hkey
    obtain ⟨old, hold, -, -, hscopes⟩ := hkeys key hkey
    rw [hscopes]
    exact h.scopes old hold
  validated := hvalidated
  removed := by
    intro call id hcall hdone
    obtain ⟨hgone, hknown⟩ := h.removed call id hcall (hwritten call hdone)
    refine ⟨fun hmem => ?_, hknown.step hstep⟩
    obtain ⟨key, hkey, rfl⟩ := List.mem_map.mp hmem
    obtain ⟨old, hold, hid, -, -⟩ := hkeys key hkey
    exact hgone (hid ▸ List.mem_map_of_mem hold)

/-- A key that has been removed is not made again. -/
theorem removed_write (hfresh : Fresh e db₀) (h : KeysIntact e db₀ s) {call passed : ℕ}
    {db : Database} (hphase : s.phase call = .checking passed)
    (hstep : Step e s ({ s with db := db }.setPhase call .written))
    (hwrite : write e call s.db = .ok db) {other : ℕ} {id : JsString}
    (hother : e.calls other = .removeApiKey id)
    (hdone : (({ s with db := db }.setPhase call .written).phase other).hasWritten = true) :
    Removed e db₀ ({ s with db := db }.setPhase call .written) id := by
  by_cases heq : other = call
  · subst heq
    obtain ⟨hthere, hgone⟩ := removed_of_write hother hwrite
    obtain ⟨key, hkey, rfl⟩ := List.mem_map.mp hthere
    exact ⟨hgone, (h.issued key hkey).known.step hstep⟩
  · rw [phase_setPhase_ne _ _ heq] at hdone
    obtain ⟨hgone, hknown⟩ := h.removed other id hother hdone
    refine ⟨fun hmem => ?_, hknown.step hstep⟩
    obtain ⟨key, hkey, rfl⟩ := List.mem_map.mp hmem
    rcases apiKeys_of_write hwrite hkey with ⟨old, hold, hid, -⟩ | ⟨dto, createdBy, -, rfl⟩
    · exact hgone (hid ▸ List.mem_map_of_mem hold)
    · exact not_knownKey hfresh (by rw [hphase]; rfl) hknown

theorem KeysIntact.write (hfresh : Fresh e db₀) (h : KeysIntact e db₀ s) {call passed : ℕ}
    {db : Database} (hphase : s.phase call = .checking passed)
    (hchecked : (checks (e.calls call)).length ≤ passed) (hwrite : write e call s.db = .ok db) :
    KeysIntact e db₀ ({ s with db := db }.setPhase call .written) := by
  have hstep : Step e s ({ s with db := db }.setPhase call .written) :=
    .write hphase hchecked hwrite
  have hgiven : ∀ scopes, givenScopes (e.calls call) = some scopes →
      ApiKeys.invalidScopes scopes = [] := by
    intro scopes hscopes
    have hlength : 0 < (checks (e.calls call)).length := by
      cases e.calls call <;> simp [checks]
    obtain ⟨before, rfl⟩ : ∃ before, passed = before + 1 := ⟨passed - 1, by omega⟩
    exact h.validated call before scopes hphase hscopes
  refine ⟨fun key hkey => ?_, fun key hkey => ?_, fun other before scopes hother hscopes => ?_,
    fun other id hother hdone => removed_write hfresh h hphase hstep hwrite hother hdone⟩
  · rcases apiKeys_of_write hwrite hkey with
      ⟨old, hold, hid, hhash, -⟩ | ⟨dto, createdBy, hcall, rfl⟩
    · exact (h.issued old hold).step hstep hid hhash
    · refine .inr ⟨call, dto, createdBy, ?_, hcall, rfl, rfl⟩
      rw [phase_setPhase_self]
      rfl
  · rcases apiKeys_of_write hwrite hkey with
      ⟨old, hold, -, -, hscopes⟩ | ⟨dto, createdBy, hcall, rfl⟩
    · rcases hscopes with hscopes | hscopes
      · rw [hscopes]
        exact h.scopes old hold
      · exact hgiven _ hscopes
    · exact hgiven _ (by rw [hcall]; rfl)
  · rcases checking_of_setPhase hother with hold | ⟨-, hnot⟩
    · exact h.validated other before scopes hold hscopes
    · cases hnot

theorem KeysIntact.step (hfresh : Fresh e db₀) (h : KeysIntact e db₀ s) (hstep : Step e s t) :
    KeysIntact e db₀ t := by
  have hsame : ∀ {u : State}, u.db.apiKeys = s.db.apiKeys → ∀ key ∈ u.db.apiKeys,
      ∃ old ∈ s.db.apiKeys, key.id = old.id ∧ key.hashedKey = old.hashedKey ∧
        key.scopes = old.scopes :=
    fun heq key hkey => ⟨key, heq ▸ hkey, rfl, rfl, rfl⟩
  cases hstep with
  | @pass call passed read hphase hread hpass =>
    refine h.of_keys (.pass hphase hread hpass) (hsame rfl)
      (fun other before scopes hother hscopes => ?_) fun _ => hasWritten_of_setPhase nofun
    rcases checking_of_setPhase hother with hold | ⟨rfl, heq⟩
    · exact h.validated other before scopes hold hscopes
    · obtain rfl : passed = before := Nat.succ.inj (Phase.checking.inj heq)
      cases passed with
      | zero => exact valid_of_first_check hscopes hread hpass
      | succ passed => exact h.validated other passed scopes hphase hscopes
  | refuse error hphase =>
    refine h.of_keys (.refuse error hphase) (hsame rfl)
      (fun other before scopes hother hscopes => ?_) fun _ => hasWritten_of_setPhase nofun
    rcases checking_of_setPhase hother with hold | ⟨-, hnot⟩
    · exact h.validated other before scopes hold hscopes
    · cases hnot
  | write hphase hchecked hwrite => exact h.write hfresh hphase hchecked hwrite
  | finish hphase hwritten =>
    refine h.of_keys (.finish hphase hwritten) (hsame rfl)
      (fun other before scopes hother hscopes => ?_)
      fun _ => hasWritten_of_setPhase fun _ => by rw [hphase]; rfl
    rcases checking_of_setPhase hother with hold | ⟨-, hnot⟩
    · exact h.validated other before scopes hold hscopes
    · rw [hnot] at hwritten
      cases hwritten
  | touch id now =>
    refine h.of_keys (.touch id now) (fun key hkey => ?_) h.validated fun _ h => h
    obtain ⟨old, hold, rfl⟩ := mem_update.mp hkey
    refine ⟨old, hold, ?_⟩
    split_ifs
    · exact ⟨rfl, rfl, rfl⟩
    · exact ⟨rfl, rfl, rfl⟩
  | commitUser hinsert =>
    refine h.of_keys (.commitUser hinsert) (hsame ?_) h.validated fun _ h => h
    unfold insertUser at hinsert
    split_ifs at hinsert
    obtain rfl := Except.ok.inj hinsert
    rfl

/-- A hash that a key had. -/
def Spent (e : Environment) (db₀ : Database) (s : State) (hash : JsString) : Prop :=
  hash ∈ db₀.apiKeys.map ApiKey.hashedKey ∨
    ∃ call, (s.phase call).hasWritten = true ∧ e.sha256 (rawKey e call) = hash

theorem Spent.step (h : Step e s t) {hash : JsString} (hspent : Spent e db₀ s hash) :
    Spent e db₀ t hash :=
  hspent.imp_right fun ⟨call, hwritten, heq⟩ => ⟨call, hasWritten_of_step h hwritten, heq⟩

/-- A hash that a key had, and none has any more, stays without a key. -/
theorem gone_step (hfresh : FreshKeys e db₀) (hstep : Step e s t) {hash : JsString}
    (hspent : Spent e db₀ s hash) (hgone : hash ∉ s.db.apiKeys.map ApiKey.hashedKey) :
    hash ∉ t.db.apiKeys.map ApiKey.hashedKey := by
  cases hstep with
  | pass _ _ _ => exact hgone
  | refuse _ _ => exact hgone
  | finish _ _ => exact hgone
  | @write call passed db hphase _ hwrite =>
    intro hback
    obtain ⟨key, hkey, rfl⟩ := List.mem_map.mp hback
    rcases apiKeys_of_write hwrite hkey with ⟨old, hold, -, hhash, -⟩ | ⟨dto, createdBy, -, rfl⟩
    · exact hgone (hhash ▸ List.mem_map_of_mem hold)
    · rcases hspent with hfirst | ⟨other, hwritten, heq⟩
      · exact hfresh.hashes call hfirst
      · obtain rfl := call_eq_of_hash hfresh heq
        rw [hphase] at hwritten
        cases hwritten
  | touch id now =>
    have hhashes : (touchApiKey s.db id now).apiKeys.map ApiKey.hashedKey =
        s.db.apiKeys.map ApiKey.hashedKey := map_update fun _ => rfl
    rwa [← hhashes] at hgone
  | commitUser hinsert =>
    unfold insertUser at hinsert
    split_ifs at hinsert
    obtain rfl := Except.ok.inj hinsert
    exact hgone

end Keys

end Appspine.AccessRuns
