import Appspine.InsertionMap
import Appspine.SlidingWindow

/-!
# Rate limits

Both limiters count the calls of a key in a bucket that the first call opens and that a call a
minute later or more replaces. The eviction timer drops buckets that no call would count in.
The times of the allowed calls are the first of every fixed window, so the limit holds in every
minute only when the fixed windows are apart.
-/
namespace Appspine.RateLimits
open InsertionMap SlidingWindow

variable {K A : Type} [DecidableEq K]

section Source

def WINDOW_MS : ℕ := 60000

def DEFAULT_LIMIT : ℕ := 60

structure Bucket where
  count : ℕ
  windowStart : ℕ
  deriving DecidableEq

abbrev Buckets (K : Type) := Entries K Bucket

/-- `RollingWindowRateLimiter.tryConsume`, at the time `now`. -/
def tryConsume (limitPerMinute : ℕ) (buckets : Buckets K) (key : K) (now : ℕ) :
    Buckets K × Bool :=
  match get buckets key with
  | none =>
    let bucket : Bucket := ⟨1, now⟩
    (set buckets key bucket, decide (bucket.count ≤ limitPerMinute))
  | some bucket =>
    if now - bucket.windowStart ≥ WINDOW_MS then
      let bucket : Bucket := ⟨1, now⟩
      (set buckets key bucket, decide (bucket.count ≤ limitPerMinute))
    else
      let bucket := { bucket with count := bucket.count + 1 }
      (set buckets key bucket, decide (bucket.count ≤ limitPerMinute))

structure RateDecision where
  allowed : Bool
  retryAfter : Option ℕ
  deriving DecidableEq

/-- `ApiKeyRateLimiter.check`, at the time `now`. -/
def check (limitPerMin : Option ℕ) (buckets : Buckets K) (keyId : K) (now : ℕ) :
    Buckets K × RateDecision :=
  let limit := limitPerMin.getD DEFAULT_LIMIT
  match get buckets keyId with
  | none => (set buckets keyId ⟨1, now⟩, ⟨true, none⟩)
  | some bucket =>
    if now - bucket.windowStart ≥ WINDOW_MS then
      (set buckets keyId ⟨1, now⟩, ⟨true, none⟩)
    else
      let bucket := { bucket with count := bucket.count + 1 }
      if bucket.count > limit then
        -- `Math.ceil` of a quotient
        let retryAfter := (WINDOW_MS - (now - bucket.windowStart) + 999) / 1000
        (set buckets keyId bucket, ⟨false, some retryAfter⟩)
      else (set buckets keyId bucket, ⟨true, none⟩)

def evict (buckets : Buckets K) (now : ℕ) : Buckets K :=
  buckets.filter fun e => !decide (now - e.2.windowStart ≥ WINDOW_MS * 2)

end Source

section Runs

/-- A call under a key, or the eviction timer. -/
inductive Firing (K : Type) where
  | call (key : K) (now : ℕ)
  | evict (now : ℕ)
  deriving DecidableEq

def Firing.time : Firing K → ℕ
  | .call _ now => now
  | .evict now => now

def Firing.isCall : Firing K → Bool
  | .call _ _ => true
  | .evict _ => false

def Nondecreasing (run : List (Firing K)) : Prop := (run.map Firing.time).Pairwise (· ≤ ·)

/-- A run without the firings of the eviction timer. -/
def callsOnly (run : List (Firing K)) : List (Firing K) := run.filter Firing.isCall

/-- What the calls of a run get, with their key and time. -/
def answers (call : Buckets K → K → ℕ → Buckets K × A) :
    Buckets K → List (Firing K) → List (K × ℕ × A)
  | _, [] => []
  | buckets, .call key now :: run =>
    (key, now, (call buckets key now).2) :: answers call (call buckets key now).1 run
  | buckets, .evict now :: run => answers call (RateLimits.evict buckets now) run

/-- The times of the calls of a key. -/
def callTimes (key : K) : List (Firing K) → List ℕ
  | [] => []
  | .call k now :: run => if k = key then now :: callTimes key run else callTimes key run
  | .evict _ :: run => callTimes key run

/-- The times of the allowed calls of a key. -/
def allowedTimes (allowed : A → Bool) (key : K) (as : List (K × ℕ × A)) : List ℕ :=
  (as.filter fun a => decide (a.1 = key) && allowed a.2.2).map fun a => a.2.1

/-- The answers of `tryConsume` over a run, from a new limiter. -/
def consumed (limit : ℕ) (run : List (Firing K)) : List (K × ℕ × Bool) :=
  answers (tryConsume limit) [] run

/-- The answers of `check` over a run in which each key brings its own limit. -/
def checked (limitOf : K → Option ℕ) (run : List (Firing K)) : List (K × ℕ × RateDecision) :=
  answers (fun buckets key => check (limitOf key) buckets key) [] run

end Runs

section Charging

/-- The bucket a call still counts in. -/
def live (bucket : Option Bucket) (now : ℕ) : Option Bucket :=
  bucket.filter fun b => !decide (now - b.windowStart ≥ WINDOW_MS)

/-- The bucket after a call. -/
def charge (bucket : Option Bucket) (now : ℕ) : Bucket :=
  match live bucket now with
  | none => ⟨1, now⟩
  | some bucket => { bucket with count := bucket.count + 1 }

@[simp] lemma live_none (now : ℕ) : live none now = none := rfl

lemma live_of_old {bucket : Bucket} {now : ℕ} (h : now - bucket.windowStart ≥ WINDOW_MS) :
    live (some bucket) now = none := by
  simp only [live, Option.filter_some]
  rw [if_neg]
  simpa using h

lemma live_of_young {bucket : Bucket} {now : ℕ} (h : ¬ now - bucket.windowStart ≥ WINDOW_MS) :
    live (some bucket) now = some bucket := by
  simp only [live, Option.filter_some]
  rw [if_pos]
  simpa using h

/-- What both limiters do: charge the key's bucket, and answer from the live one. -/
structure Charges (call : Buckets K → K → ℕ → Buckets K × A)
    (answer : K → Option Bucket → ℕ → A) : Prop where
  eq : ∀ buckets key now, call buckets key now =
    (set buckets key (charge (get buckets key) now), answer key (live (get buckets key) now) now)

/-- The answers that let a call pass are those to the first calls of a bucket. -/
def CountsTo (limit : K → ℕ) (answer : K → Option Bucket → ℕ → A) (allowed : A → Bool) : Prop :=
  ∀ key bucket now, allowed (answer key (live bucket now) now) =
    decide ((charge bucket now).count ≤ limit key)

def consumeAnswer (limit : ℕ) (_ : K) (bucket : Option Bucket) (_ : ℕ) : Bool :=
  decide ((bucket.elim 0 Bucket.count) + 1 ≤ limit)

def checkAnswer (limitOf : K → Option ℕ) (key : K) (bucket : Option Bucket) (now : ℕ) :
    RateDecision :=
  match bucket with
  | none => ⟨true, none⟩
  | some bucket =>
    if bucket.count + 1 > (limitOf key).getD DEFAULT_LIMIT then
      ⟨false, some ((WINDOW_MS - (now - bucket.windowStart) + 999) / 1000)⟩
    else ⟨true, none⟩

lemma charges_tryConsume (limit : ℕ) :
    Charges (tryConsume (K := K) limit) (consumeAnswer limit) where
  eq buckets key now := by
    unfold tryConsume charge consumeAnswer
    cases hbucket : get buckets key with
    | none => simp
    | some bucket =>
      by_cases hold : now - bucket.windowStart ≥ WINDOW_MS
      · simp [hold, live_of_old hold]
      · simp [hold, live_of_young hold]

lemma charges_check (limitOf : K → Option ℕ) :
    Charges (fun buckets key => check (limitOf key) buckets key) (checkAnswer limitOf) where
  eq buckets key now := by
    unfold check charge checkAnswer
    cases hbucket : get buckets key with
    | none => simp
    | some bucket =>
      by_cases hold : now - bucket.windowStart ≥ WINDOW_MS
      · simp [hold, live_of_old hold]
      · simp only [hold, live_of_young hold, if_false]
        split_ifs <;> rfl

omit [DecidableEq K] in
lemma countsTo_consume (limit : ℕ) :
    CountsTo (fun _ : K => limit) (consumeAnswer limit) id := by
  intro key bucket now
  unfold consumeAnswer charge
  cases live bucket now <;> simp

omit [DecidableEq K] in
/-- The call that opens a bucket is allowed unasked, which a limit of one or more would too. -/
lemma countsTo_check {limitOf : K → Option ℕ}
    (hlimits : ∀ key, 1 ≤ (limitOf key).getD DEFAULT_LIMIT) :
    CountsTo (fun key => (limitOf key).getD DEFAULT_LIMIT) (checkAnswer limitOf)
      RateDecision.allowed := by
  intro key bucket now
  unfold checkAnswer charge
  cases live bucket now with
  | none => simp [hlimits key]
  | some bucket =>
    simp only
    split_ifs with hfull
    · exact (decide_eq_false (Nat.not_le.mpr hfull)).symm
    · exact (decide_eq_true (Nat.le_of_not_gt hfull)).symm

end Charging

section Evictions

variable {call : Buckets K → K → ℕ → Buckets K × A} {answer : K → Option Bucket → ℕ → A}
  {buckets kept : Buckets K}

lemma get_filter_snd {α : Type} (p : α → Bool) {m : Entries K α} (hm : (keys m).Nodup) (k : K) :
    get (m.filter fun e => p e.2) k = (get m k).filter p := by
  induction m with
  | nil => simp
  | cons e m ih =>
    have hnot : e.1 ∉ keys m := (List.nodup_cons.mp hm).1
    have hrest := ih (List.nodup_cons.mp hm).2
    rw [List.filter_cons, get_cons]
    by_cases hk : e.1 = k
    · subst hk
      rw [get_eq_none.mpr hnot] at hrest
      by_cases hp : p e.2 = true
      · simp [hp, get_cons, Option.filter_some]
      · simpa [hp, Option.filter_some] using hrest
    · by_cases hp : p e.2 = true
      · simp [hp, get_cons, hk, hrest]
      · simp [hp, hk, hrest]

omit [DecidableEq K] in
lemma nodup_keys_evict (hm : (keys buckets).Nodup) (now : ℕ) : (keys (evict buckets now)).Nodup :=
  hm.sublist (List.filter_sublist.map Prod.fst)

/-- The buckets of a limiter, and those it would have without evictions: what is missing counts
no more from the time `now` on. -/
structure Dropped (now : ℕ) (buckets kept : Buckets K) : Prop where
  nodup : (keys buckets).Nodup
  same : ∀ key, get buckets key = get kept key ∨
    (get buckets key = none ∧ ∀ bucket, get kept key = some bucket →
      bucket.windowStart + WINDOW_MS ≤ now)

lemma Dropped.live_eq {time now : ℕ} (h : Dropped time buckets kept) (hnow : time ≤ now)
    (key : K) : live (get buckets key) now = live (get kept key) now := by
  rcases h.same key with heq | ⟨hnone, hold⟩
  · rw [heq]
  · rw [hnone]
    cases hkept : get kept key with
    | none => rfl
    | some bucket =>
      have := hold bucket hkept
      simp only [live, Option.filter_none, Option.filter_some]
      rw [if_neg]
      simp only [Bool.not_eq_true', decide_eq_false_iff_not, not_not]
      omega

lemma Dropped.charged (hcall : Charges call answer) {time now : ℕ} (h : Dropped time buckets kept)
    (hnow : time ≤ now) (key : K) :
    (call buckets key now).2 = (call kept key now).2 ∧
      Dropped now (call buckets key now).1 (call kept key now).1 := by
  have hlive := h.live_eq hnow key
  have hcharge : charge (get buckets key) now = charge (get kept key) now := by
    unfold charge
    rw [hlive]
  rw [hcall.eq, hcall.eq, hlive, hcharge]
  refine ⟨rfl, nodup_keys_set h.nodup _ _, fun k => ?_⟩
  rw [get_set, get_set]
  by_cases hk : k = key
  · simp [hk]
  · simp only [hk, if_false]
    rcases h.same k with heq | ⟨hnone, hold⟩
    · exact .inl heq
    · exact .inr ⟨hnone, fun bucket hb => (hold bucket hb).trans hnow⟩

lemma Dropped.evict {time now : ℕ} (h : Dropped time buckets kept) (hnow : time ≤ now) :
    Dropped now (RateLimits.evict buckets now) kept := by
  refine ⟨nodup_keys_evict h.nodup now, fun key => ?_⟩
  have hget := get_filter_snd (fun b : Bucket => !decide (now - b.windowStart ≥ WINDOW_MS * 2))
    h.nodup key
  unfold RateLimits.evict
  rw [hget]
  rcases h.same key with heq | ⟨hnone, hold⟩
  · rw [heq]
    cases hkept : get kept key with
    | none => exact .inl rfl
    | some bucket =>
      by_cases hstale : now - bucket.windowStart ≥ WINDOW_MS * 2
      · refine .inr ⟨by simp [hstale, Option.filter_some], fun b hb => ?_⟩
        cases hb
        simp only [WINDOW_MS] at hstale ⊢
        omega
      · exact .inl (by simp [hstale, Option.filter_some])
  · rw [hnone]
    exact .inr ⟨rfl, fun bucket hb => (hold bucket hb).trans hnow⟩

/-- Without the firings of the eviction timer every call gets the same answer. -/
lemma answers_callsOnly (hcall : Charges call answer) {run : List (Firing K)} {time : ℕ}
    (hrun : Nondecreasing run) (hfrom : ∀ f ∈ run, time ≤ f.time)
    (h : Dropped time buckets kept) :
    answers call buckets run = answers call kept (callsOnly run) := by
  induction run generalizing time buckets kept with
  | nil => rfl
  | cons firing run ih =>
    have htime := hfrom firing List.mem_cons_self
    have hrest : ∀ f ∈ run, firing.time ≤ f.time := fun f hf =>
      List.rel_of_pairwise_cons hrun (List.mem_map_of_mem hf)
    cases firing with
    | call key now =>
      have hnow : time ≤ now := htime
      obtain ⟨hanswer, hnext⟩ := h.charged hcall hnow key
      have hkeep : callsOnly (.call key now :: run) = .call key now :: callsOnly run := rfl
      rw [hkeep, answers, answers, hanswer, ih hrun.of_cons hrest hnext]
    | evict now => exact ih hrun.of_cons hrest (h.evict htime)

lemma answers_eq_callsOnly (hcall : Charges call answer) {run : List (Firing K)}
    (hrun : Nondecreasing run) : answers call [] run = answers call [] (callsOnly run) :=
  answers_callsOnly hcall hrun (fun _ _ => Nat.zero_le _)
    ⟨List.nodup_nil, fun _ => .inl rfl⟩

end Evictions

section Windows

variable {call : Buckets K → K → ℕ → Buckets K × A} {answer : K → Option Bucket → ℕ → A}
  {limit : K → ℕ} {allowed : A → Bool}

/-- The allowed ones among the calls of one key, from its bucket on. -/
def admitted (limit : ℕ) : Option Bucket → List ℕ → List ℕ
  | _, [] => []
  | bucket, t :: times =>
    (if (charge bucket t).count ≤ limit then [t] else []) ++
      admitted limit (some (charge bucket t)) times

/-- The calls of other keys leave a key's bucket alone. -/
lemma allowedTimes_answers {key : K} (hcall : Charges call answer)
    (hcounts : CountsTo limit answer allowed) (buckets : Buckets K) (run : List (Firing K)) :
    allowedTimes allowed key (answers call buckets (callsOnly run)) =
      admitted (limit key) (get buckets key) (callTimes key run) := by
  induction run generalizing buckets with
  | nil => rfl
  | cons firing run ih =>
    cases firing with
    | evict now => exact ih buckets
    | call k now =>
      have hkeep : callsOnly (.call k now :: run) = .call k now :: callsOnly run := rfl
      have hnext := ih (call buckets k now).1
      rw [hcall.eq] at hnext
      rw [hkeep, answers, callTimes, hcall.eq]
      unfold allowedTimes at hnext ⊢
      rw [List.filter_cons]
      by_cases hk : k = key
      · subst hk
        rw [get_set, if_pos rfl] at hnext
        rw [if_pos rfl, admitted, ← hnext, hcounts k (get buckets k) now]
        by_cases hle : (charge (get buckets k) now).count ≤ limit k <;> simp [hle]
      · rw [get_set, if_neg (Ne.symm hk)] at hnext
        simpa [hk] using hnext

/-- From an open bucket on: what is left of it, then the first calls of every fixed window. -/
lemma admitted_some (limit count windowStart : ℕ) (times : List ℕ) :
    admitted limit (some ⟨count, windowStart⟩) times =
      (times.takeWhile fun u => decide (u < windowStart + WINDOW_MS)).take (limit - count) ++
        admitted limit none
          (times.dropWhile fun u => decide (u < windowStart + WINDOW_MS)) := by
  induction times generalizing count with
  | nil => simp [admitted]
  | cons t times ih =>
    by_cases hopen : t < windowStart + WINDOW_MS
    · have hcharge : charge (some ⟨count, windowStart⟩) t = ⟨count + 1, windowStart⟩ := by
        have hlive : ¬ t - (Bucket.mk count windowStart).windowStart ≥ WINDOW_MS := by
          have : 0 < WINDOW_MS := by decide
          simp only
          omega
        simp [charge, live_of_young hlive]
      rw [admitted, hcharge, ih]
      simp only [List.takeWhile_cons, List.dropWhile_cons, hopen, decide_true, if_true]
      by_cases hle : count + 1 ≤ limit
      · rw [if_pos hle, show limit - count = limit - (count + 1) + 1 by omega,
          List.take_succ_cons]
        simp
      · rw [if_neg hle, show limit - count = 0 by omega, show limit - (count + 1) = 0 by omega]
        simp
    · have hcharge : charge (some ⟨count, windowStart⟩) t = charge none t := by
        have hlive : t - (Bucket.mk count windowStart).windowStart ≥ WINDOW_MS := by
          simp only
          omega
        simp [charge, live_of_old hlive]
      rw [admitted, hcharge]
      simp [hopen, admitted]

/-- From no bucket on, the allowed calls are the first of every fixed window. -/
lemma admitted_none {limit : ℕ} (hlimit : 1 ≤ limit) (times : List ℕ) :
    admitted limit none times = (fixedWindows WINDOW_MS times).flatMap (List.take limit) := by
  induction times using fixedWindows.induct WINDOW_MS with
  | case1 => simp [admitted, fixedWindows]
  | case2 t times ih =>
    have hcharge : charge none t = ⟨1, t⟩ := rfl
    rw [admitted, hcharge, admitted_some, fixedWindows, List.flatMap_cons, ih, if_pos hlimit]
    obtain ⟨n, rfl⟩ : ∃ n, limit = n + 1 := ⟨limit - 1, by omega⟩
    simp

lemma sorted_callTimes {run : List (Firing K)} (hrun : Nondecreasing run) (key : K) :
    (callTimes key run).Pairwise (· ≤ ·) := by
  have hsub : (callTimes key run).Sublist (run.map Firing.time) := by
    clear hrun
    induction run with
    | nil => exact List.Sublist.slnil
    | cons firing run ih =>
      cases firing with
      | evict now => exact ih.cons _
      | call k now =>
        rw [callTimes]
        split_ifs
        · exact ih.cons_cons _
        · exact ih.cons _
  exact hrun.sublist hsub

/-- The allowed calls of a key keep to its limit exactly when its fixed windows are apart. -/
lemma keepsTo_answers_iff (hcall : Charges call answer) (hcounts : CountsTo limit answer allowed)
    (key : K) (hlimit : 1 ≤ limit key) {run : List (Firing K)} (hrun : Nondecreasing run) :
    KeepsTo WINDOW_MS (limit key) (allowedTimes allowed key (answers call [] run)) ↔
      (fixedWindows WINDOW_MS (callTimes key run)).IsChain (Apart WINDOW_MS (limit key)) := by
  rw [answers_eq_callsOnly hcall hrun, allowedTimes_answers hcall hcounts, get_nil,
    admitted_none hlimit]
  exact keepsTo_fixedWindows_iff (by decide) (sorted_callTimes hrun key)

/-- For either limiter, every minute holds at most `limit` allowed calls of a key exactly when the
calls of the key that its fixed windows let in are apart from one window to the next. The firings
of the eviction timer change no answer. -/
theorem rolling_minute_iff (limit : ℕ) (hlimit : 1 ≤ limit) (limitOf : K → Option ℕ)
    (hlimits : ∀ key, 1 ≤ (limitOf key).getD DEFAULT_LIMIT) (run : List (Firing K))
    (hrun : Nondecreasing run) :
    (∀ key, KeepsTo WINDOW_MS limit (allowedTimes id key (consumed limit run)) ↔
      (fixedWindows WINDOW_MS (callTimes key run)).IsChain (Apart WINDOW_MS limit)) ∧
    (∀ key, KeepsTo WINDOW_MS ((limitOf key).getD DEFAULT_LIMIT)
        (allowedTimes RateDecision.allowed key (checked limitOf run)) ↔
      (fixedWindows WINDOW_MS (callTimes key run)).IsChain
        (Apart WINDOW_MS ((limitOf key).getD DEFAULT_LIMIT))) ∧
    consumed limit run = consumed limit (callsOnly run) ∧
    checked limitOf run = checked limitOf (callsOnly run) :=
  ⟨fun key => keepsTo_answers_iff (charges_tryConsume limit) (countsTo_consume limit) key
      hlimit hrun,
    fun key => keepsTo_answers_iff (charges_check limitOf) (countsTo_check hlimits) key
      (hlimits key) hrun,
    answers_eq_callsOnly (charges_tryConsume limit) hrun,
    answers_eq_callsOnly (charges_check limitOf) hrun⟩

/-- A burst of two calls around the end of a bucket and another one in the next. -/
def burst : List (Firing Unit) :=
  [.call () 0, .call () 59999, .call () 60000, .evict 60000, .call () 60001]

theorem rolling_minute_burst :
    (1 ≤ 2 ∧ Nondecreasing burst) ∧
    (∀ key, KeepsTo WINDOW_MS 2 (allowedTimes id key (consumed 2 burst)) ↔
      (fixedWindows WINDOW_MS (callTimes key burst)).IsChain (Apart WINDOW_MS 2)) :=
  ⟨⟨by decide, by unfold Nondecreasing; decide⟩,
    (rolling_minute_iff 2 (by decide) (fun _ => some 2) (fun _ => by decide) burst
      (by unfold Nondecreasing; decide)).1⟩

/-- With a limit of two, three calls are allowed within three milliseconds. -/
theorem burst_exceeds_limit :
    Nondecreasing burst ∧
    (inWindow WINDOW_MS 59999 (allowedTimes id () (consumed 2 burst))).length = 3 ∧
    (inWindow WINDOW_MS 59999
      (allowedTimes RateDecision.allowed () (checked (fun _ => some 2) burst))).length = 3 ∧
    ¬ KeepsTo WINDOW_MS 2 (allowedTimes id () (consumed 2 burst)) ∧
    ¬ KeepsTo WINDOW_MS 2
      (allowedTimes RateDecision.allowed () (checked (fun _ => some 2) burst)) := by
  refine ⟨by unfold Nondecreasing; decide, by decide, by decide, fun h => ?_, fun h => ?_⟩
  · exact absurd (h 59999) (by decide)
  · exact absurd (h 59999) (by decide)

end Windows

end Appspine.RateLimits
