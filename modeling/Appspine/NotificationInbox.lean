import Appspine.NotificationRuns

/-!
# The inbox of a recipient

What `getInbox` and `getUnreadCount` say of a table at rest, and the invariant of the store over
all runs.
-/
namespace Appspine.Notification
open JsText PagedListing Transitions

section AtRest

variable (collation : Collation) (rows : Rows)

/-- The rows of one page, both reads made on the same table. -/
def inboxPage (recipientUserId : JsString) (query : NotificationQuery) : Rows :=
  match getInbox recipientUserId query with
  | .reading owner page limit _ _ => findInbox collation rows owner page limit
  | _ => []

/-- All pages that `getInbox` accepts, one after the other. -/
def inboxPages (recipientUserId : JsString) (limit : ℤ) : Rows :=
  (List.range notificationLimits.page).flatMap fun p : ℕ =>
    inboxPage collation rows recipientUserId ⟨some (p + 1), some limit⟩

/-- `getUnreadCount` is the number of rows of the inbox that are not read. -/
def CountsUnread (recipientUserId : JsString) (limit : ℤ) : Prop :=
  ∀ call : DatabaseCall, call.fails = false →
    getUnreadCount call recipientUserId rows = .done (.ok (.count
      ((inboxPages collation rows recipientUserId limit).countP fun row => decide (row.readAt = none))))

end AtRest

section Counting

variable {collation : Collation} {rows : Rows} {recipientUserId owner : JsString} {limit : ℤ}

/-- The whole inbox, as the database lists it. -/
def inboxListing (collation : Collation) (rows : Rows) (owner : JsString) : Rows :=
  (rows.filter (inInbox owner)).insertionSort (inboxOrder collation).le

lemma parseQuery_page {p : ℕ} (hp : p < notificationLimits.page) (hlimit : 1 ≤ limit)
    (hmax : limit ≤ notificationLimits.limit) :
    parseQuery ⟨some (p + 1), some limit⟩ = .ok (p + 1, limit.toNat) := by
  have hpage : (p : ℤ) + 1 ≤ notificationLimits.page := by exact_mod_cast hp
  simp only [parseQuery, Option.getD_some]
  rw [if_pos ⟨by omega, hpage, hlimit, hmax⟩]
  congr 2

/-- The pages together are the inbox, up to the last page there may be. -/
lemma inboxPages_eq (howner : validateRecipient recipientUserId = .ok owner) (hlimit : 1 ≤ limit)
    (hmax : limit ≤ notificationLimits.limit) :
    inboxPages collation rows recipientUserId limit =
      (inboxListing collation rows owner).take (notificationLimits.page * limit.toNat) := by
  have hpage : ∀ p : ℕ, p < notificationLimits.page →
      inboxPage collation rows recipientUserId ⟨some (p + 1), some limit⟩ =
        page limit.toNat p (inboxListing collation rows owner) := by
    intro p hp
    simp only [inboxPage, getInbox, howner, parseQuery_page hp hlimit hmax, findInbox,
      Nat.add_sub_cancel, inboxListing]
  unfold inboxPages
  generalize notificationLimits.page = pages at hpage
  rw [← flatMap_page]
  exact List.flatMap_congr fun p hp => hpage p (List.mem_range.mp hp)

lemma countP_inboxListing (collation : Collation) (rows : Rows) (owner : JsString) :
    (inboxListing collation rows owner).countP (fun row => decide (row.readAt = none)) =
      rows.countP (isUnread owner) := by
  rw [inboxListing, (List.perm_insertionSort _ _).countP_eq, List.countP_filter]
  refine List.countP_congr fun row _ => ?_
  simp only [inInbox, isUnread, Bool.and_eq_true, decide_eq_true_eq]
  tauto

lemma length_inboxListing (collation : Collation) (rows : Rows) (owner : JsString) :
    (inboxListing collation rows owner).length = rows.countP (inInbox owner) := by
  rw [inboxListing, List.length_insertionSort, List.countP_eq_length_filter]

/-- The unread count is that of the pages, when the pages reach to the end of the inbox. -/
lemma countsUnread (howner : validateRecipient recipientUserId = .ok owner) (hlimit : 1 ≤ limit)
    (hmax : limit ≤ notificationLimits.limit)
    (hpages : (rows.countP (inInbox owner) : ℤ) ≤ notificationLimits.page * limit) :
    CountsUnread collation rows recipientUserId limit := by
  intro call hfails
  have hlength : (inboxListing collation rows owner).length ≤
      notificationLimits.page * limit.toNat := by
    rw [length_inboxListing]
    have htoNat : (limit.toNat : ℤ) = limit := Int.toNat_of_nonneg (by omega)
    rw [← htoNat] at hpages
    exact_mod_cast hpages
  rw [inboxPages_eq howner hlimit hmax, List.take_of_length_le hlength, countP_inboxListing]
  simp [getUnreadCount, howner, hfails]

end Counting

section Store

variable {C : Type} [DecidableEq C] (resolves : JsString → Bool) (collation : Collation)
  (operations : C → Operation)

/-- The invariant of the store: between any two states of a run rows are kept, unique and only
stamped, every step keeps to the recipients of its call, and the two reads of the inbox agree as
long as the pages reach to its end. -/
theorem store_invariant (as bs : List (C × DatabaseCall)) (s t : State C)
    (hs : run (step resolves collation operations) (State.initial C) as = some s)
    (ht : run (step resolves collation operations) s bs = some t) :
    Unique t.rows ∧
    (∀ row ∈ s.rows, ∃ later ∈ t.rows, Evolves row later) ∧
    (∀ c call u, step resolves collation operations t (c, call) = some u →
      Isolated operations t u c call) ∧
    ∀ (recipientUserId owner : JsString) (limit : ℤ), validateRecipient recipientUserId = .ok owner →
      1 ≤ limit → limit ≤ notificationLimits.limit →
      (t.rows.countP (inInbox owner) : ℤ) ≤ notificationLimits.page * limit →
      CountsUnread collation t.rows recipientUserId limit := by
  have hsound : Sound operations s :=
    run_invariant (fun s a t hs h => (step_spec hs h).2) (sound_initial operations) hs
  have hlater : Sound operations t :=
    run_invariant (fun s a t hs h => (step_spec hs h).2) hsound ht
  have hevolves : ∀ row ∈ s.rows, ∃ later ∈ t.rows, Evolves row later := by
    refine run_related (P := Sound operations)
      (R := fun s t => ∀ row ∈ s.rows, ∃ later ∈ t.rows, Evolves row later)
      (fun s row hrow => ⟨row, hrow, .refl row⟩) (fun s t u hst htu row hrow => ?_)
      (fun s a t hs h => (step_spec hs h).2) (fun s a t hs h => (step_spec hs h).1.evolves) hsound ht
    obtain ⟨later, hlater, hevolves⟩ := hst row hrow
    obtain ⟨last, hlast, hevolves'⟩ := htu later hlater
    exact ⟨last, hlast, hevolves.trans hevolves'⟩
  exact ⟨hlater.unique, hevolves, fun c call u h => step_isolated hlater h,
    fun _ _ _ howner hlimit hmax hpages => countsUnread howner hlimit hmax hpages⟩

end Store

section FullInbox

/-- The order of code units. -/
def codeUnits : Collation where
  toSortOrder := SortOrder.byKey (id : JsString → JsString)
  antisymm _ _ := le_antisymm

/-- A number below `2 ^ 27` as a text. -/
def bits (n : ℕ) : JsString :=
  (List.range 27).map fun i => if n.testBit i then unit '1' else unit '0'

def fillInput (n : ℕ) : CreateNotificationInput where
  recipientUserId := js "user-1"
  idempotencyKey := bits n
  type := js "ping"
  title := js "Ping"
  sourceApp := js "app"

def fillData (n : ℕ) : NotificationCreateData where
  recipientUserId := js "user-1"
  idempotencyKey := bits n
  type := js "ping"
  category := none
  severity := .info
  title := js "Ping"
  body := none
  sourceApp := js "app"
  sourceEventId := none
  sourceEntityType := none
  sourceEntityId := none
  targetPath := none

/-- Call `n` notifies the same user under its own key. -/
def fillOperations (n : ℕ) : Operation := .notify (fillInput n)

def fillActions (n : ℕ) : List (ℕ × DatabaseCall) :=
  (List.range n).map fun k => (k, { now := 0, ids := [bits k] })

/-- The first `n` calls have made their insert. -/
def filled (n : ℕ) : State ℕ where
  rows := (List.range n).map fun k => newRow 0 (bits k) (fillData k)
  phase c := if c < n then .inserted (fillData c) else .notStarted

lemma mem_bits {n : ℕ} {u : CodeUnit} (h : u ∈ bits n) : u = unit '1' ∨ u = unit '0' := by
  obtain ⟨i, -, rfl⟩ := List.mem_map.mp h
  split_ifs
  · exact .inl rfl
  · exact .inr rfl

lemma bits_inj {k n : ℕ} (hk : k < 2 ^ 27) (hn : n < 2 ^ 27) (h : bits k = bits n) : k = n := by
  refine Nat.eq_of_testBit_eq fun i => ?_
  rcases Nat.lt_or_ge i 27 with hi | hi
  · have hbit := List.map_inj_left.mp h i (List.mem_range.mpr hi)
    have hne : unit '1' ≠ unit '0' := by decide
    cases hki : k.testBit i <;> cases hni : n.testBit i <;> simp [hki, hni, hne, hne.symm] at hbit ⊢
  · have hpow : 2 ^ 27 ≤ 2 ^ i := Nat.pow_le_pow_right (by omega) hi
    rw [Nat.testBit_lt_two_pow (by omega), Nat.testBit_lt_two_pow (by omega)]

lemma trim_eq_self {text : JsString} (h : ∀ u ∈ text, isWhiteSpace u = false) : trim text = text := by
  have hdrop : ∀ t : JsString, (∀ u ∈ t, isWhiteSpace u = false) → t.dropWhile isWhiteSpace = t := by
    intro t ht
    cases t with
    | nil => rfl
    | cons u us => rw [List.dropWhile_cons_of_neg (by simp [ht u List.mem_cons_self])]
  rw [trim, hdrop text h, hdrop _ (fun u hu => h u (List.mem_reverse.mp hu)), List.reverse_reverse]

lemma createData_fill (resolves : JsString → Bool) (n : ℕ) :
    createData resolves (fillInput n) = some (fillData n) := by
  have htrim : trim (bits n) = bits n := by
    refine trim_eq_self fun u hu => ?_
    rcases mem_bits hu with rfl | rfl <;> decide
  have hkey : boundedText notificationLimits.idempotencyKey (bits n) = some (bits n) := by
    have hlength : (bits n).length = 27 := by simp [bits]
    simp only [boundedText, htrim, hlength]
    rfl
  have huser : boundedText notificationLimits.id (js "user-1") = some (js "user-1") := by decide
  have htype : boundedText notificationLimits.type (js "ping") = some (js "ping") := by decide
  have htitle : boundedText notificationLimits.title (js "Ping") = some (js "Ping") := by decide
  have hsource : boundedText notificationLimits.sourceApp (js "app") = some (js "app") := by decide
  simp only [createData, fillInput, hkey, huser, htype, htitle, hsource]
  rfl

lemma storable_fill (n : ℕ) : storable (fillData n) = true := by
  have hbits : 0 ∉ bits n := by
    intro h
    rcases mem_bits h with h | h <;> exact absurd h (by decide)
  have hfixed : 0 ∉ js "user-1" ∧ 0 ∉ js "ping" ∧ 0 ∉ js "Ping" ∧ 0 ∉ js "app" := by decide
  simp [storable, fillData, hbits, hfixed]

lemma step_fill (resolves : JsString → Bool) (collation : Collation) {n : ℕ} (hn : n < 2 ^ 27) :
    step resolves collation fillOperations (filled n) (n, { now := 0, ids := [bits n] }) =
      some (filled (n + 1)) := by
  have hfree : ¬ ∃ old ∈ (filled n).rows, old.id = bits n ∨ old.hasKey (js "user-1") (bits n) := by
    rintro ⟨old, hold, hconflict⟩
    obtain ⟨k, hk, rfl⟩ := List.mem_map.mp hold
    have hlt := List.mem_range.mp hk
    have hsame : bits k = bits n := hconflict.elim id fun h => h.2
    have hkn := bits_inj (by omega) hn hsame
    omega
  have hcreate : createMany 0 [bits n] [fillData n] (filled n).rows =
      some ((filled n).rows ++ [newRow 0 (bits n) (fillData n)]) := by
    have hstorable : [fillData n].all storable = true := by simp [storable_fill]
    have hinsert : insertRow (filled n).rows (newRow 0 (bits n) (fillData n)) =
        (filled n).rows ++ [newRow 0 (bits n) (fillData n)] := if_neg hfree
    rw [createMany, if_pos ⟨rfl, hstorable⟩]
    exact congrArg some hinsert
  have hrows : (filled n).rows ++ [newRow 0 (bits n) (fillData n)] = (filled (n + 1)).rows := by
    simp only [filled, List.range_succ, List.map_append, List.map_singleton]
  have hphase : Function.update (filled n).phase n (.inserted (fillData n)) =
      (filled (n + 1)).phase := by
    funext c
    simp only [Function.update_apply, filled]
    by_cases hc : c = n
    · subst hc
      simp
    · have hlt : c < n + 1 ↔ c < n := by omega
      simp only [hc, if_false, hlt]
  have hstart : (filled n).phase n = .notStarted := by simp [filled]
  simp only [step, hstart, start, fillOperations, notify, createData_fill, insertAll,
    Bool.false_eq_true, if_false, hcreate]
  rw [hrows, hphase]

lemma run_fill (resolves : JsString → Bool) (collation : Collation) {n : ℕ} (hn : n ≤ 2 ^ 27) :
    run (step resolves collation fillOperations) (State.initial ℕ) (fillActions n) =
      some (filled n) := by
  induction n with
  | zero => simp [fillActions, filled, State.initial]
  | succ n ih =>
    rw [fillActions, List.range_succ, List.map_append, List.map_singleton, run_snoc]
    exact ⟨filled n, ih (by omega), step_fill resolves collation (by omega)⟩

lemma validate_fill : validateRecipient (js "user-1") = .ok (js "user-1") := by decide

lemma unread_filled (n : ℕ) : (filled n).rows.countP (isUnread (js "user-1")) = n := by
  have hall : ∀ row ∈ (filled n).rows, isUnread (js "user-1") row = true := by
    intro row hrow
    obtain ⟨k, -, rfl⟩ := List.mem_map.mp hrow
    exact decide_eq_true ⟨rfl, rfl, rfl⟩
  rw [List.countP_eq_length.mpr hall, filled, List.length_map, List.length_range]

/-- The pages end before the inbox does. -/
lemma not_countsUnread_filled {collation : Collation} {n : ℕ} {limit : ℤ} (hlimit : 1 ≤ limit)
    (hmax : limit ≤ notificationLimits.limit) (hn : notificationLimits.page * limit.toNat < n) :
    ¬ CountsUnread collation (filled n).rows (js "user-1") limit := by
  intro h
  have hcount := h { now := 0 } rfl
  rw [inboxPages_eq validate_fill hlimit hmax] at hcount
  simp only [getUnreadCount, validate_fill, Bool.false_eq_true, if_false, Phase.done.injEq,
    Except.ok.injEq, Result.count.injEq, unread_filled] at hcount
  have hlength : n ≤ notificationLimits.page * limit.toNat := by
    calc n = _ := hcount
      _ ≤ _ := List.countP_le_length
      _ ≤ _ := List.length_take_le _ _
  omega

theorem store_invariant_filled :
    (filled 2).rows.countP (inInbox (js "user-1")) = 2 ∧
      CountsUnread codeUnits (filled 2).rows (js "user-1") 1 := by
  have hcount : (filled 2).rows.countP (inInbox (js "user-1")) = 2 := by decide +kernel
  have hinv := store_invariant (fun _ => true) codeUnits fillOperations [] (fillActions 2)
    (State.initial ℕ) (filled 2) rfl (run_fill _ codeUnits (by norm_num))
  refine ⟨hcount, hinv.2.2.2 (js "user-1") (js "user-1") 1 (by decide) le_rfl (by decide) ?_⟩
  rw [hcount]
  norm_num [notificationLimits]

/-- One more notification than the last page of the largest size ends with. -/
theorem unread_beyond_last_page :
    ¬ ∀ (as : List (ℕ × DatabaseCall)) (s : State ℕ),
      run (step (fun _ => true) codeUnits fillOperations) (State.initial ℕ) as = some s →
      ∀ (recipientUserId owner : JsString) (limit : ℤ),
        validateRecipient recipientUserId = .ok owner → 1 ≤ limit →
        limit ≤ notificationLimits.limit → CountsUnread codeUnits s.rows recipientUserId limit := by
  intro h
  have hlarge : notificationLimits.page * (100 : ℤ).toNat < 100000001 := by decide
  exact not_countsUnread_filled (by norm_num) (by decide) hlarge
    (h _ _ (run_fill _ codeUnits (by norm_num)) _ _ 100 validate_fill (by norm_num) (by decide))

end FullInbox

end Appspine.Notification
