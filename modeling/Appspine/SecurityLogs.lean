import Appspine.JsonNumbers
import Appspine.RateLimits

/-!
# Security logs

Two logs of rejected requests. Each writes the first rejections of a minute line by line, counts
the rest, and writes the count later as a summary. What is still counted is accounted for, so at
the end every rejection is in a line of its own or in the count of a summary.
-/
namespace Appspine.SecurityLogs
open JsText JsonText InsertionMap RateLimits

section Accounting

/-- A logged line: one rejection, or how many were suppressed under a label. -/
inductive Line (E κ : Type) where
  | rejection (event : E)
  | summary (label : κ) (count : ℕ)
  deriving DecidableEq

variable {E κ S F : Type} [DecidableEq κ] {label : E → κ} {k : κ}

/-- The rejections in lines of their own. -/
def individual (label : E → κ) (k : κ) (lines : List (Line E κ)) : ℕ :=
  lines.countP fun
    | .rejection event => decide (label event = k)
    | .summary _ _ => false

/-- The counts of the summaries, together. -/
def summarised (k : κ) (lines : List (Line E κ)) : ℕ :=
  (lines.map fun
    | .rejection _ => 0
    | .summary label count => if label = k then count else 0).sum

/-- The lines of a run, with those of closing the log after it. -/
def linesOf (step : S → F → S × List (Line E κ)) (close : S → List (Line E κ)) :
    S → List F → List (Line E κ)
  | s, [] => close s
  | s, f :: run => (step s f).2 ++ linesOf step close (step s f).1 run

@[simp] lemma individual_append (lines lines' : List (Line E κ)) :
    individual label k (lines ++ lines') = individual label k lines + individual label k lines' :=
  List.countP_append

@[simp] lemma summarised_append (lines lines' : List (Line E κ)) :
    summarised k (lines ++ lines') = summarised k lines + summarised k lines' := by
  simp [summarised]

@[simp] lemma individual_nil : individual label k ([] : List (Line E κ)) = 0 := rfl

@[simp] lemma summarised_nil : summarised k ([] : List (Line E κ)) = 0 := rfl

@[simp] lemma individual_rejection (event : E) :
    individual label k [.rejection event] = if label event = k then 1 else 0 := by
  by_cases h : label event = k <;> simp [individual, h]

@[simp] lemma summarised_rejection (event : E) :
    summarised k [(.rejection event : Line E κ)] = 0 := rfl

/-- A log that accounts for the rejections under a label: what a step records goes into its lines
or stays pending, what is pending is in the lines of closing, and no summary is empty. -/
structure Accounts (step : S → F → S × List (Line E κ)) (close : S → List (Line E κ))
    (label : E → κ) (k : κ) (Valid : S → Prop) (pending : S → ℕ) (records : F → Bool) :
    Prop where
  valid : ∀ s f, Valid s → Valid (step s f).1
  step : ∀ s f, Valid s → (if records f then 1 else 0) + pending s =
    individual label k (step s f).2 + summarised k (step s f).2 + pending (step s f).1
  close : ∀ s, Valid s → pending s = individual label k (close s) + summarised k (close s)

/-- Nothing is lost over a run. -/
theorem Accounts.run {step : S → F → S × List (Line E κ)} {close : S → List (Line E κ)}
    {Valid : S → Prop} {pending : S → ℕ} {records : F → Bool}
    (h : Accounts step close label k Valid pending records) {s : S} (hs : Valid s)
    (run : List F) :
    run.countP records + pending s =
      individual label k (linesOf step close s run) +
        summarised k (linesOf step close s run) := by
  induction run generalizing s with
  | nil => simpa [linesOf] using h.close s hs
  | cons f run ih =>
    have hstep := h.step s f hs
    have hrest := ih (h.valid s f hs)
    rw [linesOf, individual_append, summarised_append, List.countP_cons]
    split_ifs at hstep ⊢ <;> omega

/-- One summary for each entry that has something to sum up. -/
def summaries {κ' α : Type} (labelOf : κ' → κ) (amount : α → ℕ) (m : Entries κ' α) :
    List (Line E κ) :=
  m.flatMap fun e => if amount e.2 > 0 then [.summary (labelOf e.1) (amount e.2)] else []

lemma summarised_cons_entry {κ' α : Type} (labelOf : κ' → κ) (amount : α → ℕ) (e : κ' × α)
    (m : Entries κ' α) :
    summarised k (summaries labelOf amount (e :: m) : List (Line E κ)) =
      (if labelOf e.1 = k then amount e.2 else 0) +
        summarised k (summaries labelOf amount m : List (Line E κ)) := by
  unfold summaries
  rw [List.flatMap_cons, summarised_append]
  congr 1
  by_cases hpos : amount e.2 > 0
  · rw [if_pos hpos]
    simp [summarised]
  · rw [if_neg hpos]
    simp [show amount e.2 = 0 by omega]

@[simp] lemma individual_summaries {κ' α : Type} (labelOf : κ' → κ) (amount : α → ℕ)
    (m : Entries κ' α) :
    individual label k (summaries labelOf amount m : List (Line E κ)) = 0 := by
  unfold individual summaries
  rw [List.countP_eq_zero]
  intro line hline
  obtain ⟨e, -, hin⟩ := List.mem_flatMap.mp hline
  split_ifs at hin
  · rw [List.mem_singleton.mp hin]
    simp
  · cases hin

/-- The summaries of entries, only one of which is under the label, count what that one has. -/
lemma summarised_summaries {κ' α : Type} [DecidableEq κ'] {labelOf : κ' → κ} (amount : α → ℕ)
    {k' : κ'} {m : Entries κ' α} (hm : (keys m).Nodup)
    (hlabel : ∀ key ∈ keys m, labelOf key = k ↔ key = k') :
    summarised k (summaries labelOf amount m : List (Line E κ)) =
      ((get m k').map amount).getD 0 := by
  induction m with
  | nil => rfl
  | cons e m ih =>
    have hnot : e.1 ∉ keys m := (List.nodup_cons.mp hm).1
    have hrest := ih (List.nodup_cons.mp hm).2 fun key hkey =>
      hlabel key (List.mem_cons_of_mem _ hkey)
    have hhead := hlabel e.1 List.mem_cons_self
    rw [summarised_cons_entry, hrest, get_cons]
    by_cases hk : e.1 = k'
    · rw [if_pos hk, if_pos (hhead.mpr hk), get_eq_none.mpr (hk ▸ hnot)]
      simp
    · rw [if_neg hk, if_neg (mt hhead.mp hk), Nat.zero_add]

omit [DecidableEq κ] in
/-- What the summaries of each step and of closing meet, those of a run meet. -/
theorem summaries_of_run {step : S → F → S × List (Line E κ)} {close : S → List (Line E κ)}
    {Valid : S → Prop} {P : κ → ℕ → Prop} (hvalid : ∀ s f, Valid s → Valid (step s f).1)
    (hstep : ∀ s f, Valid s → ∀ k count, .summary k count ∈ (step s f).2 → P k count)
    (hclose : ∀ s, Valid s → ∀ k count, .summary k count ∈ close s → P k count) {s : S}
    (hs : Valid s) (run : List F) {k : κ} {count : ℕ}
    (h : .summary k count ∈ linesOf step close s run) : P k count := by
  induction run generalizing s with
  | nil => exact hclose s hs k count h
  | cons f run ih =>
    rcases List.mem_append.mp h with h | h
    · exact hstep s f hs k count h
    · exact ih (hvalid s f hs) h

lemma le_summarised {lines : List (Line E κ)} {count : ℕ} (h : .summary k count ∈ lines) :
    count ≤ summarised k lines := by
  refine List.le_sum_of_mem (List.mem_map.mpr ⟨_, h, ?_⟩)
  simp

omit [DecidableEq κ] in
lemma mem_summaries {κ' α : Type} {labelOf : κ' → κ} {amount : α → ℕ} {m : Entries κ' α}
    {count : ℕ} (h : .summary k count ∈ (summaries labelOf amount m : List (Line E κ))) :
    ∃ key ∈ keys m, labelOf key = k ∧ 0 < count := by
  obtain ⟨e, he, hin⟩ := List.mem_flatMap.mp h
  split_ifs at hin with hpos
  · obtain ⟨rfl, rfl⟩ := Line.summary.inj (List.mem_singleton.mp hin)
    exact ⟨e.1, List.mem_map_of_mem he, rfl, hpos⟩
  · cases hin

end Accounting

section Delegation

/-- What `oidc-delegation` logs of an exchange. -/
structure OidcDelegationLogEvent where
  provider : JsString
  policy : JsString
  category : JsString
  latencyMs : ℕ
  correlationId : Option JsString
  deriving DecidableEq

def REJECTIONS_PER_MINUTE : ℕ := 20

abbrev EventLine := Line OidcDelegationLogEvent JsString

/-- The event that reaches the logger. -/
def logged : EventLine → OidcDelegationLogEvent
  | .rejection event => event
  | .summary category count =>
    { provider := js "oidc-delegation"
      policy := js "n/a"
      category := category ++ js "_suppressed_summary"
      latencyMs := 0
      correlationId := some (js "suppressed_count=" ++ natText count) }

structure SecurityEventLog where
  limiter : Buckets JsString
  suppressed : Entries JsString ℕ

inductive EventFiring where
  | recordRejection (event : OidcDelegationLogEvent) (now : ℕ)
  | flushTimer
  | evictionTimer (now : ℕ)

def recordRejection (log : SecurityEventLog) (event : OidcDelegationLogEvent) (now : ℕ) :
    SecurityEventLog × List EventLine :=
  let consumed := tryConsume REJECTIONS_PER_MINUTE log.limiter event.category now
  if consumed.2 then (⟨consumed.1, log.suppressed⟩, [.rejection event])
  else
    let count := (get log.suppressed event.category).getD 0 + 1
    (⟨consumed.1, set log.suppressed event.category count⟩, [])

def flushSuppressed (log : SecurityEventLog) : SecurityEventLog × List EventLine :=
  (⟨log.limiter, []⟩, summaries id id log.suppressed)

def eventStep (log : SecurityEventLog) : EventFiring → SecurityEventLog × List EventLine
  | .recordRejection event now => recordRejection log event now
  | .flushTimer => flushSuppressed log
  | .evictionTimer now => (⟨evict log.limiter now, log.suppressed⟩, [])

/-- All that is logged over a run that ends with `dispose`. -/
def eventLines (run : List EventFiring) : List EventLine :=
  linesOf eventStep (fun log => (flushSuppressed log).2) ⟨[], []⟩ run

def EventFiring.records (category : JsString) : EventFiring → Bool
  | .recordRejection event _ => decide (event.category = category)
  | _ => false

variable {category : JsString} {log : SecurityEventLog}

def ValidLog (log : SecurityEventLog) : Prop := (keys log.suppressed).Nodup

def pendingEvents (category : JsString) (log : SecurityEventLog) : ℕ :=
  (get log.suppressed category).getD 0

lemma summarised_flush (hlog : ValidLog log) :
    summarised category (flushSuppressed log).2 = pendingEvents category log := by
  have hsum : summarised category (summaries id id log.suppressed : List EventLine) =
      ((get log.suppressed category).map id).getD 0 :=
    summarised_summaries id hlog fun key _ => Iff.rfl
  simpa [flushSuppressed, pendingEvents] using hsum

lemma accounts_events (category : JsString) :
    Accounts eventStep (fun log => (flushSuppressed log).2) OidcDelegationLogEvent.category
      category ValidLog (pendingEvents category) (EventFiring.records category) where
  valid log f hlog := by
    cases f with
    | recordRejection event now =>
      simp only [eventStep, recordRejection]
      split_ifs
      · exact hlog
      · exact nodup_keys_set hlog _ _
    | flushTimer => exact List.nodup_nil
    | evictionTimer now => exact hlog
  step log f hlog := by
    cases f with
    | recordRejection event now =>
      simp only [eventStep, recordRejection, EventFiring.records, pendingEvents,
        decide_eq_true_eq]
      by_cases hpass : (tryConsume REJECTIONS_PER_MINUTE log.limiter event.category now).2
      · simp only [hpass, if_true, individual_rejection, summarised_rejection]
        omega
      · simp only [hpass, if_false, individual_nil, summarised_nil, get_set, Bool.false_eq_true]
        by_cases hsame : event.category = category
        · rw [if_pos hsame, if_pos hsame.symm, hsame, Option.getD_some]
          omega
        · rw [if_neg hsame, if_neg (Ne.symm hsame)]
    | flushTimer =>
      have hsum : summarised category (flushSuppressed log).2 = pendingEvents category log :=
        summarised_flush hlog
      have hind : individual OidcDelegationLogEvent.category category (flushSuppressed log).2 = 0 :=
        individual_summaries id id log.suppressed
      have hafter : pendingEvents category (flushSuppressed log).1 = 0 := rfl
      simp only [eventStep, EventFiring.records, hsum, hind, hafter, Bool.false_eq_true, if_false]
      omega
    | evictionTimer now => simp [eventStep, EventFiring.records, pendingEvents]
  close log hlog := by
    rw [summarised_flush hlog]
    simp [flushSuppressed]

lemma summaries_events {run : List EventFiring} {count : ℕ}
    (h : .summary category count ∈ eventLines run) : 0 < count := by
  have hflush : ∀ log : SecurityEventLog, ∀ c n,
      .summary c n ∈ (flushSuppressed log).2 → 0 < n := by
    intro log c n hin
    obtain ⟨-, -, -, hpos⟩ := mem_summaries hin
    exact hpos
  refine summaries_of_run (P := fun _ n => 0 < n) (accounts_events category).valid
    ?_ (fun log _ => hflush log) (show ValidLog ⟨[], []⟩ from List.nodup_nil) run h
  intro log f _ c n hin
  cases f with
  | recordRejection event now =>
    simp only [eventStep, recordRejection] at hin
    split_ifs at hin
    · cases List.mem_singleton.mp hin
    · cases hin
  | flushTimer => exact hflush log c n hin
  | evictionTimer now => cases hin

/-- The record of a summary tells what category it sums up. -/
lemma logged_summary_inj {category' : JsString} {count count' : ℕ}
    (h : logged (.summary category count) = logged (.summary category' count')) :
    category = category' :=
  List.append_cancel_right (congrArg OidcDelegationLogEvent.category h)

end Delegation

section Delegated

inductive RejectionCategory where
  | identityMappingFailed
  | tokenRejected
  | internalError
  deriving DecidableEq

def RejectionCategory.text : RejectionCategory → JsString
  | .identityMappingFailed => js "identity_mapping_failed"
  | .tokenRejected => js "token_rejected"
  | .internalError => js "internal_error"

/-- A thrown value, as far as `instanceof` tells it apart. -/
inductive ThrownValue where
  | delegatedIdentityMappingError
  | unauthorizedException
  | other
  deriving DecidableEq

def categorize : ThrownValue → RejectionCategory
  | .delegatedIdentityMappingError => .identityMappingFailed
  | .unauthorizedException => .tokenRejected
  | .other => .internalError

def MAX_EVENTS_PER_BUCKET : ℕ := 20

structure EventBucket where
  count : ℕ
  suppressed : ℕ
  windowStart : ℕ
  deriving DecidableEq

abbrev EventBuckets := Entries JsString EventBucket

/-- A line with its profile and category. -/
abbrev DelegatedLine := Line (JsString × JsString) (JsString × JsString)

inductive DelegatedFiring where
  | recordRejection (profile : JsString) (error : ThrownValue) (now : ℕ)
  | flushTimer (now : ℕ)

def bucketKey (profile category : JsString) : JsString := profile ++ unit ':' :: category

/-- `key.slice(0, separator)` and `key.slice(separator + 1)` at `key.lastIndexOf(':')`. -/
def splitKey (key : JsString) : JsString × JsString :=
  if unit ':' ∈ key then
    (key.take (key.length - (afterLast (unit ':') key).length - 1), afterLast (unit ':') key)
  else (key.dropLast, key)

def isExpired (now : ℕ) (bucket : EventBucket) : Bool :=
  decide (now - bucket.windowStart ≥ WINDOW_MS)

/-- `logSummary` for a bucket that has suppressed something. -/
def summaryOf (profile category : JsString) (bucket : EventBucket) : List DelegatedLine :=
  if bucket.suppressed > 0 then [.summary (profile, category) bucket.suppressed] else []

/-- The bucket a rejection counts in, and the summary of the one it replaces. -/
def openBucket (buckets : EventBuckets) (profile category : JsString) (now : ℕ) :
    EventBucket × List DelegatedLine :=
  match get buckets (bucketKey profile category) with
  | none => (⟨0, 0, now⟩, [])
  | some bucket =>
    if isExpired now bucket then (⟨0, 0, now⟩, summaryOf profile category bucket)
    else (bucket, [])

def recordDelegated (buckets : EventBuckets) (profile : JsString) (error : ThrownValue)
    (now : ℕ) : EventBuckets × List DelegatedLine :=
  let category := (categorize error).text
  let key := bucketKey profile category
  let (bucket, lines) := openBucket buckets profile category now
  if bucket.count < MAX_EVENTS_PER_BUCKET then
    (set buckets key { bucket with count := bucket.count + 1 },
      lines ++ [.rejection (profile, category)])
  else (set buckets key { bucket with suppressed := bucket.suppressed + 1 }, lines)

def flushExpired (buckets : EventBuckets) (now : ℕ) : EventBuckets × List DelegatedLine :=
  (buckets.filter (fun e => !isExpired now e.2),
    summaries splitKey EventBucket.suppressed (buckets.filter fun e => isExpired now e.2))

def flushAll (buckets : EventBuckets) : List DelegatedLine :=
  summaries splitKey EventBucket.suppressed buckets

def delegatedStep (buckets : EventBuckets) : DelegatedFiring → EventBuckets × List DelegatedLine
  | .recordRejection profile error now => recordDelegated buckets profile error now
  | .flushTimer now => flushExpired buckets now

/-- All that is logged over a run that ends with `onModuleDestroy`. -/
def delegatedLines (run : List DelegatedFiring) : List DelegatedLine :=
  linesOf delegatedStep flushAll [] run

def DelegatedFiring.records (profile : JsString) (category : RejectionCategory) :
    DelegatedFiring → Bool
  | .recordRejection profile' error _ =>
    decide (profile' = profile) && decide (categorize error = category)
  | .flushTimer _ => false

variable {profile : JsString} {category : RejectionCategory} {buckets : EventBuckets}

lemma RejectionCategory.text_injective : Function.Injective RejectionCategory.text := by
  intro c c' h
  cases c <;> cases c' <;> first | rfl | exact absurd h (by decide)

/-- No category has the separator in it, so a key has one reading. -/
lemma notMem_text (category : RejectionCategory) : unit ':' ∉ category.text := by
  cases category <;> decide

lemma splitKey_bucketKey (profile : JsString) (category : RejectionCategory) :
    splitKey (bucketKey profile category.text) = (profile, category.text) := by
  have hafter : afterLast (unit ':') (bucketKey profile category.text) = category.text := by
    have hall : ∀ u ∈ category.text.reverse, decide (u ≠ unit ':') = true := by
      intro u hu
      have hne : u ≠ unit ':' := fun h => notMem_text category (h ▸ List.mem_reverse.mp hu)
      exact decide_eq_true hne
    have hrev : (bucketKey profile category.text).reverse =
        category.text.reverse ++ unit ':' :: profile.reverse := by
      simp [bucketKey]
    rw [afterLast, hrev, List.takeWhile_append_of_pos hall]
    simp
  have hmem : unit ':' ∈ bucketKey profile category.text := by simp [bucketKey]
  have hlen : (bucketKey profile category.text).length - category.text.length - 1 =
      profile.length := by
    simp only [bucketKey, List.length_append, List.length_cons]
    omega
  rw [splitKey, if_pos hmem, hafter, hlen, bucketKey, List.take_left]

lemma bucketKey_inj {profile profile' : JsString} {category category' : RejectionCategory} :
    bucketKey profile category.text = bucketKey profile' category'.text ↔
      profile = profile' ∧ category = category' := by
  constructor
  · intro h
    have hsplit := congrArg splitKey h
    rw [splitKey_bucketKey, splitKey_bucketKey] at hsplit
    exact ⟨congrArg Prod.fst hsplit,
      RejectionCategory.text_injective (congrArg Prod.snd hsplit)⟩
  · rintro ⟨rfl, rfl⟩
    rfl

/-- Each key is that of a profile and a category, and there is one bucket for it. -/
structure ValidBuckets (buckets : EventBuckets) : Prop where
  nodup : (keys buckets).Nodup
  formed : ∀ key ∈ keys buckets, ∃ profile category,
    key = bucketKey profile (RejectionCategory.text category)

def pendingDelegated (profile : JsString) (category : RejectionCategory)
    (buckets : EventBuckets) : ℕ :=
  ((get buckets (bucketKey profile category.text)).map EventBucket.suppressed).getD 0

lemma get_bucketKey_of_ne {profile' : JsString} {category' : RejectionCategory}
    (h : ¬ (profile' = profile ∧ category' = category)) (bucket : EventBucket) :
    get (set buckets (bucketKey profile' category'.text) bucket)
      (bucketKey profile category.text) = get buckets (bucketKey profile category.text) := by
  rw [get_set, if_neg]
  exact fun heq => h (bucketKey_inj.mp heq.symm)

/-- What the replaced bucket had suppressed is in its summary. -/
lemma openBucket_spec (buckets : EventBuckets) (profile : JsString)
    (category : RejectionCategory) (now : ℕ) :
    pendingDelegated profile category buckets =
      summarised (profile, category.text) (openBucket buckets profile category.text now).2 +
        (openBucket buckets profile category.text now).1.suppressed := by
  unfold pendingDelegated openBucket
  cases get buckets (bucketKey profile category.text) with
  | none => rfl
  | some bucket =>
    by_cases hold : isExpired now bucket = true
    · simp only [hold, if_true, summaryOf]
      split_ifs with hpos
      · simp [summarised]
      · simp [show bucket.suppressed = 0 by omega]
    · simp [hold]

lemma mem_openBucket {buckets : EventBuckets} {p c : JsString} {now : ℕ}
    {line : DelegatedLine} (h : line ∈ (openBucket buckets p c now).2) :
    ∃ count > 0, line = .summary (p, c) count := by
  unfold openBucket at h
  cases hget : get buckets (bucketKey p c) with
  | none =>
    rw [hget] at h
    cases h
  | some bucket =>
    rw [hget] at h
    simp only [summaryOf] at h
    split_ifs at h with hold hpos
    · exact ⟨_, hpos, List.mem_singleton.mp h⟩
    · cases h
    · cases h

lemma individual_openBucket (buckets : EventBuckets) (p c : JsString) (now : ℕ)
    (k : JsString × JsString) :
    individual id k (openBucket buckets p c now).2 = 0 := by
  rw [individual, List.countP_eq_zero]
  intro line hline
  obtain ⟨count, -, rfl⟩ := mem_openBucket hline
  simp

lemma summarised_openBucket_of_ne {p c : JsString} {k : JsString × JsString} (h : (p, c) ≠ k)
    (buckets : EventBuckets) (now : ℕ) : summarised k (openBucket buckets p c now).2 = 0 := by
  rw [summarised, List.sum_eq_zero_iff]
  intro n hn
  obtain ⟨line, hline, rfl⟩ := List.mem_map.mp hn
  obtain ⟨count, -, rfl⟩ := mem_openBucket hline
  simp [h]

lemma valid_recordDelegated (hvalid : ValidBuckets buckets) (profile : JsString)
    (error : ThrownValue) (now : ℕ) :
    ValidBuckets (recordDelegated buckets profile error now).1 := by
  have hset : ∀ bucket, ValidBuckets
      (set buckets (bucketKey profile (categorize error).text) bucket) := by
    intro bucket
    refine ⟨nodup_keys_set hvalid.nodup _ _, fun key hkey => ?_⟩
    rcases mem_keys_set.mp hkey with h | h
    · exact ⟨_, _, h⟩
    · exact hvalid.formed key h
  unfold recordDelegated
  simp only
  split_ifs <;> exact hset _

/-- The keys under a profile and a category. -/
lemma splitKey_eq_iff {m : EventBuckets} (hm : ValidBuckets m) :
    ∀ key ∈ keys m, splitKey key = (profile, category.text) ↔
      key = bucketKey profile category.text := by
  intro key hkey
  obtain ⟨profile', category', rfl⟩ := hm.formed key hkey
  rw [splitKey_bucketKey, bucketKey_inj, Prod.mk.injEq]
  exact and_congr_right fun _ => RejectionCategory.text_injective.eq_iff

lemma ValidBuckets.filter (hvalid : ValidBuckets buckets) (p : EventBucket → Bool) :
    ValidBuckets (buckets.filter fun e => p e.2) := by
  have hsub : (keys (buckets.filter fun e => p e.2)).Sublist (keys buckets) :=
    List.filter_sublist.map Prod.fst
  exact ⟨hvalid.nodup.sublist hsub, fun key hkey => hvalid.formed key (hsub.subset hkey)⟩

lemma summarised_buckets {m : EventBuckets} (hm : ValidBuckets m) :
    summarised (profile, category.text)
        (summaries splitKey EventBucket.suppressed m : List DelegatedLine) =
      pendingDelegated profile category m :=
  summarised_summaries EventBucket.suppressed hm.nodup (splitKey_eq_iff hm)

/-- A rejection under the label is in its line or pending, with what the bucket held before. -/
lemma record_same (buckets : EventBuckets) (profile : JsString) (error : ThrownValue) (now : ℕ) :
    let k := (profile, (categorize error).text)
    let after := recordDelegated buckets profile error now
    1 + pendingDelegated profile (categorize error) buckets =
      individual id k after.2 + summarised k after.2 +
        pendingDelegated profile (categorize error) after.1 := by
  have hspec := openBucket_spec buckets profile (categorize error) now
  have hind := individual_openBucket buckets profile (categorize error).text now
    (profile, (categorize error).text)
  simp only [recordDelegated, hspec]
  split_ifs
  · simp only [individual_append, summarised_append, hind, individual_rejection,
      summarised_rejection, pendingDelegated, get_set, if_true, Option.map_some,
      Option.getD_some, id]
    omega
  · simp only [hind, pendingDelegated, get_set, if_true, Option.map_some, Option.getD_some]
    omega

/-- A rejection under another label changes nothing under this one. -/
lemma record_other {profile' : JsString} {error : ThrownValue}
    (h : ¬ (profile' = profile ∧ categorize error = category)) (buckets : EventBuckets)
    (now : ℕ) :
    let after := recordDelegated buckets profile' error now
    individual id (profile, category.text) after.2 = 0 ∧
      summarised (profile, category.text) after.2 = 0 ∧
      pendingDelegated profile category after.1 = pendingDelegated profile category buckets := by
  have hne : (profile', (categorize error).text) ≠ (profile, category.text) := by
    intro heq
    rw [Prod.mk.injEq] at heq
    exact h ⟨heq.1, RejectionCategory.text_injective heq.2⟩
  have hind := individual_openBucket buckets profile' (categorize error).text now
    (profile, category.text)
  have hsum := summarised_openBucket_of_ne hne buckets now
  simp only [recordDelegated]
  split_ifs
  · refine ⟨?_, ?_, ?_⟩
    · rw [individual_append, hind, individual_rejection, id, if_neg hne]
    · rw [summarised_append, hsum, summarised_rejection]
    · rw [pendingDelegated, get_bucketKey_of_ne h, pendingDelegated]
  · refine ⟨hind, hsum, ?_⟩
    rw [pendingDelegated, get_bucketKey_of_ne h, pendingDelegated]

/-- The flush takes from the buckets what it puts into summaries. -/
lemma flushExpired_spec (hvalid : ValidBuckets buckets) (now : ℕ) :
    pendingDelegated profile category buckets =
      summarised (profile, category.text) (flushExpired buckets now).2 +
        pendingDelegated profile category (flushExpired buckets now).1 := by
  rw [flushExpired, summarised_buckets (hvalid.filter (isExpired now))]
  simp only [pendingDelegated]
  rw [get_filter_snd (isExpired now) hvalid.nodup,
    get_filter_snd (fun bucket => !isExpired now bucket) hvalid.nodup]
  cases get buckets (bucketKey profile category.text) with
  | none => rfl
  | some bucket => by_cases hold : isExpired now bucket = true <;> simp [Option.filter_some, hold]

lemma accounts_delegated (profile : JsString) (category : RejectionCategory) :
    Accounts delegatedStep flushAll id (profile, category.text) ValidBuckets
      (pendingDelegated profile category) (DelegatedFiring.records profile category) where
  valid buckets f hvalid := by
    cases f with
    | recordRejection profile' error now => exact valid_recordDelegated hvalid profile' error now
    | flushTimer now => exact hvalid.filter fun bucket => !isExpired now bucket
  step buckets f hvalid := by
    cases f with
    | recordRejection profile' error now =>
      by_cases hsame : profile' = profile ∧ categorize error = category
      · obtain ⟨rfl, rfl⟩ := hsame
        simpa [DelegatedFiring.records, delegatedStep] using record_same buckets profile' error now
      · obtain ⟨hind, hsum, hpending⟩ := record_other hsame buckets now
        have hrecords : DelegatedFiring.records profile category
            (.recordRejection profile' error now) = false := by
          simpa [DelegatedFiring.records] using hsame
        simp only [delegatedStep, hrecords, hind, hsum, hpending, Bool.false_eq_true, if_false]
    | flushTimer now =>
      have hind : individual id (profile, category.text) (flushExpired buckets now).2 = 0 :=
        individual_summaries _ _ _
      simp only [delegatedStep, DelegatedFiring.records, hind, Bool.false_eq_true, if_false,
        Nat.zero_add]
      exact flushExpired_spec hvalid now
  close buckets hvalid := by
    have hind : individual id (profile, category.text) (flushAll buckets) = 0 :=
      individual_summaries _ _ _
    rw [hind, flushAll, summarised_buckets hvalid, Nat.zero_add]

lemma validBuckets_nil : ValidBuckets [] := ⟨List.nodup_nil, fun _ h => by cases h⟩

lemma mem_summaries_buckets {m : EventBuckets} (hm : ValidBuckets m) {k : JsString × JsString}
    {count : ℕ} (h : .summary k count ∈
      (summaries splitKey EventBucket.suppressed m : List DelegatedLine)) :
    (∃ category, k.2 = RejectionCategory.text category) ∧ 0 < count := by
  obtain ⟨key, hkey, rfl, hpos⟩ := mem_summaries h
  obtain ⟨profile, category, rfl⟩ := hm.formed key hkey
  exact ⟨⟨category, by rw [splitKey_bucketKey]⟩, hpos⟩

/-- A summary names one of the categories and counts something. -/
lemma summaries_delegated {run : List DelegatedFiring} {k : JsString × JsString} {count : ℕ}
    (h : .summary k count ∈ delegatedLines run) :
    (∃ category, k.2 = RejectionCategory.text category) ∧ 0 < count := by
  refine summaries_of_run
    (P := fun k n => (∃ category, k.2 = RejectionCategory.text category) ∧ 0 < n)
    (accounts_delegated [] .tokenRejected).valid ?_
    (fun m hm _ _ => mem_summaries_buckets hm) validBuckets_nil run h
  intro m f hm k n hin
  cases f with
  | recordRejection profile error now =>
    have hopen : .summary k n ∈
        (openBucket m profile (categorize error).text now).2 := by
      simp only [delegatedStep, recordDelegated] at hin
      split_ifs at hin
      · rcases List.mem_append.mp hin with hin | hin
        · exact hin
        · cases List.mem_singleton.mp hin
      · exact hin
    obtain ⟨count, hpos, heq⟩ := mem_openBucket hopen
    obtain ⟨rfl, rfl⟩ := Line.summary.inj heq
    exact ⟨⟨_, rfl⟩, hpos⟩
  | flushTimer now => exact mem_summaries_buckets (hm.filter (isExpired now)) hin

end Delegated

section Conservation

/-- In both logs every rejection is in a line of its own or in the count of a summary under its
label, and every summary counts rejections under its label. -/
theorem rejections_accounted (run : List EventFiring) (delegatedRun : List DelegatedFiring) :
    (∀ category, run.countP (EventFiring.records category) =
      individual OidcDelegationLogEvent.category category (eventLines run) +
        summarised category (eventLines run)) ∧
    (∀ category count, .summary category count ∈ eventLines run →
      0 < count ∧ individual OidcDelegationLogEvent.category category (eventLines run) + count ≤
        run.countP (EventFiring.records category)) ∧
    (∀ category category' count count',
      logged (.summary category count) = logged (.summary category' count') →
        category = category') ∧
    (∀ profile category, delegatedRun.countP (DelegatedFiring.records profile category) =
      individual id (profile, category.text) (delegatedLines delegatedRun) +
        summarised (profile, category.text) (delegatedLines delegatedRun)) ∧
    ∀ profile text count, .summary (profile, text) count ∈ delegatedLines delegatedRun →
      ∃ category, text = RejectionCategory.text category ∧ 0 < count ∧
        individual id (profile, text) (delegatedLines delegatedRun) + count ≤
          delegatedRun.countP (DelegatedFiring.records profile category) := by
  have hevents : ∀ category, run.countP (EventFiring.records category) =
      individual OidcDelegationLogEvent.category category (eventLines run) +
        summarised category (eventLines run) := fun category =>
    (accounts_events category).run (s := ⟨[], []⟩) List.nodup_nil run
  have hdelegated : ∀ profile category,
      delegatedRun.countP (DelegatedFiring.records profile category) =
        individual id (profile, category.text) (delegatedLines delegatedRun) +
          summarised (profile, category.text) (delegatedLines delegatedRun) :=
    fun profile category => (accounts_delegated profile category).run validBuckets_nil delegatedRun
  refine ⟨hevents, ?_, fun _ _ _ _ => logged_summary_inj, hdelegated, ?_⟩
  · intro category count h
    have hle := le_summarised h
    have htotal := hevents category
    exact ⟨summaries_events h, by omega⟩
  · intro profile text count h
    obtain ⟨⟨category, rfl⟩, hpos⟩ := summaries_delegated h
    have hle := le_summarised h
    have htotal := hdelegated profile category
    exact ⟨category, rfl, hpos, by omega⟩

end Conservation

end Appspine.SecurityLogs
