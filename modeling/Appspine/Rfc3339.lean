import Appspine.JsonNumbers

/-!
# RFC 3339 date-times

`isRfc3339DateTime` reads a text with one regular expression and bounds its
fields. The grammar of RFC 3339 is stated by what it generates; the function
accepts the part of it with upper-case letters, a year from 1 on and no leap second.
-/
namespace Appspine.Rfc3339
open JsText JsonText

section Source

/-- `(\d{n})` at the head of a text. -/
def digits (n : ℕ) (s : JsString) : Option (ℕ × JsString) :=
  if (s.take n).length = n ∧ (s.take n).all isDigit then
    some (decimalValue (s.take n), s.drop n)
  else none

/-- One given character at the head of a text. -/
def literal (c : CodeUnit) : JsString → Option JsString
  | [] => none
  | u :: us => if u = c then some us else none

/-- `(?:\.\d+)?`. Giving back digits never helps: what follows does not start with one. -/
def fraction : JsString → Option JsString
  | [] => some []
  | u :: us =>
    if u = unit '.' then
      if us.takeWhile isDigit = [] then none else some (us.dropWhile isDigit)
    else some (u :: us)

/-- `(Z|[+-](\d{2}):(\d{2}))$`, with the two groups, zero when they take no part. -/
def offset : JsString → Option (ℕ × ℕ)
  | [] => none
  | u :: us =>
    if u = unit 'Z' then
      if us = [] then some (0, 0) else none
    else if u = unit '+' ∨ u = unit '-' then do
      let (hour, us) ← digits 2 us
      let us ← literal (unit ':') us
      let (minute, us) ← digits 2 us
      if us = [] then some (hour, minute) else none
    else none

/-- The groups of the regular expression as numbers. -/
structure Match where
  year : ℕ
  month : ℕ
  day : ℕ
  hour : ℕ
  minute : ℕ
  second : ℕ
  offsetHour : ℕ
  offsetMinute : ℕ

def matchDateTime (s : JsString) : Option Match := do
  let (year, s) ← digits 4 s
  let s ← literal (unit '-') s
  let (month, s) ← digits 2 s
  let s ← literal (unit '-') s
  let (day, s) ← digits 2 s
  let s ← literal (unit 'T') s
  let (hour, s) ← digits 2 s
  let s ← literal (unit ':') s
  let (minute, s) ← digits 2 s
  let s ← literal (unit ':') s
  let (second, s) ← digits 2 s
  let s ← fraction s
  let (offsetHour, offsetMinute) ← offset s
  some ⟨year, month, day, hour, minute, second, offsetHour, offsetMinute⟩

def daysInMonth (year month : ℕ) : ℕ :=
  if month = 2 then
    if year % 4 = 0 ∧ (year % 100 ≠ 0 ∨ year % 400 = 0) then 29 else 28
  else if month ∈ [4, 6, 9, 11] then 30 else 31

def isRfc3339DateTime (value : JsString) : Bool :=
  match matchDateTime value with
  | none => false
  | some m =>
    if m.year < 1 ∨ m.month < 1 ∨ m.month > 12 ∨ m.day < 1 ∨
        m.day > daysInMonth m.year m.month then false
    else if m.hour > 23 ∨ m.minute > 59 ∨ m.second > 59 ∨ m.offsetHour > 23 ∨
        m.offsetMinute > 59 then false
    else true

end Source

section Grammar

/-- The decimal digits of a number in a field of fixed width. -/
def padded : ℕ → ℕ → JsString
  | 0, _ => []
  | n + 1, v => padded n (v / 10) ++ [digitUnit (v % 10)]

/-- `time-offset`: UTC, or a signed distance from it. -/
inductive Offset where
  | utc
  | shift (negative : Bool) (hour minute : ℕ)

/-- The fields of a `date-time`. -/
structure Stamp where
  year : ℕ
  month : ℕ
  day : ℕ
  hour : ℕ
  minute : ℕ
  second : ℕ
  /-- `time-secfrac`, its digits. -/
  secfrac : Option JsString
  offset : Offset

def Offset.text (z : CodeUnit) : Offset → JsString
  | .utc => [z]
  | .shift negative hour minute =>
    (if negative then unit '-' else unit '+') :: (padded 2 hour ++ unit ':' :: padded 2 minute)

def secfracText : Option JsString → JsString
  | none => []
  | some ds => unit '.' :: ds

/-- The text of the fields, with the two letters the grammar leaves the case of open. -/
def Stamp.text (t z : CodeUnit) (st : Stamp) : JsString :=
  padded 4 st.year ++ unit '-' :: (padded 2 st.month ++ unit '-' :: (padded 2 st.day ++
    t :: (padded 2 st.hour ++ unit ':' :: (padded 2 st.minute ++ unit ':' ::
      (padded 2 st.second ++ (secfracText st.secfrac ++ st.offset.text z))))))

def Offset.Valid : Offset → Prop
  | .utc => True
  | .shift _ hour minute => hour ≤ 23 ∧ minute ≤ 59

/-- Minutes to take from the local time of day to have it in UTC. -/
def Offset.minutes : Offset → ℤ
  | .utc => 0
  | .shift negative hour minute => (if negative then -1 else 1) * (60 * hour + minute)

/-- A 61st second stands only at the end of a UTC day. -/
def Stamp.AtDayEnd (st : Stamp) : Prop :=
  (60 * (st.hour : ℤ) + st.minute - st.offset.minutes) % 1440 = 1439

instance (st : Stamp) : Decidable st.AtDayEnd := inferInstanceAs (Decidable (_ = _))

/-- The ranges of sections 5.6 and 5.7 of the RFC. -/
structure Stamp.Valid (st : Stamp) : Prop where
  year : st.year ≤ 9999
  month : 1 ≤ st.month ∧ st.month ≤ 12
  day : 1 ≤ st.day ∧ st.day ≤ daysInMonth st.year st.month
  hour : st.hour ≤ 23
  minute : st.minute ≤ 59
  second : st.second ≤ 59 ∨ (st.second = 60 ∧ st.AtDayEnd)
  secfrac : ∀ ds, st.secfrac = some ds → ds ≠ [] ∧ ds.all isDigit = true
  offset : st.offset.Valid

/-- The RFC's `date-time`. -/
def IsDateTime (s : JsString) : Prop :=
  ∃ st : Stamp, ∃ t z, st.Valid ∧ (t = unit 'T' ∨ t = unit 't') ∧ (z = unit 'Z' ∨ z = unit 'z') ∧
    s = st.text t z

/-- The date-times with upper-case letters, a year from 1 on and no leap second. -/
def IsPlainDateTime (s : JsString) : Prop :=
  ∃ st : Stamp, st.Valid ∧ 1 ≤ st.year ∧ st.second ≤ 59 ∧ s = st.text (unit 'T') (unit 'Z')

lemma IsPlainDateTime.isDateTime {s : JsString} (h : IsPlainDateTime s) : IsDateTime s := by
  obtain ⟨st, hvalid, -, -, rfl⟩ := h
  exact ⟨st, unit 'T', unit 'Z', hvalid, Or.inl rfl, Or.inl rfl, rfl⟩

end Grammar

section Fields

lemma decimalValue_append (s : JsString) (u : CodeUnit) :
    decimalValue (s ++ [u]) = 10 * decimalValue s + (u.val - 48) := by
  simp [decimalValue]

@[simp] lemma length_padded (n v : ℕ) : (padded n v).length = n := by
  induction n generalizing v with
  | zero => rfl
  | succ n ih => simp [padded, ih]

lemma isDigit_digitUnit {d : ℕ} (h : d < 10) : isDigit (digitUnit d) = true := by
  have hval := val_digitUnit h
  simp only [isDigit, decide_eq_true_eq]
  omega

lemma all_padded (n v : ℕ) : (padded n v).all isDigit = true := by
  induction n generalizing v with
  | zero => rfl
  | succ n ih =>
    rw [padded, List.all_append, ih]
    simpa using isDigit_digitUnit (Nat.mod_lt v (by norm_num))

lemma decimalValue_padded {n v : ℕ} (h : v < 10 ^ n) : decimalValue (padded n v) = v := by
  induction n generalizing v with
  | zero =>
    have hv : v = 0 := by simpa using h
    rw [hv]
    rfl
  | succ n ih =>
    have hdiv : v / 10 < 10 ^ n := by
      rw [pow_succ] at h
      exact Nat.div_lt_of_lt_mul (by rwa [mul_comm])
    have hval := val_digitUnit (Nat.mod_lt v (show 0 < 10 by norm_num))
    rw [padded, decimalValue_append, ih hdiv, hval]
    omega

lemma digitUnit_of_isDigit {u : CodeUnit} (h : isDigit u = true) :
    u.val - 48 < 10 ∧ digitUnit (u.val - 48) = u := by
  simp only [isDigit, decide_eq_true_eq] at h
  have hlt : u.val - 48 < 10 := by omega
  refine ⟨hlt, ?_⟩
  apply Fin.ext
  rw [val_digitUnit hlt]
  omega

/-- A field of digits is the padded text of the number it has. -/
lemma padded_decimalValue (ds : JsString) (h : ds.all isDigit = true) :
    decimalValue ds < 10 ^ ds.length ∧ padded ds.length (decimalValue ds) = ds := by
  induction ds using List.reverseRecOn with
  | nil => exact ⟨by decide, rfl⟩
  | append_singleton ds u ih =>
    rw [List.all_append, Bool.and_eq_true] at h
    obtain ⟨hlt, hpad⟩ := ih h.1
    obtain ⟨hu, hunit⟩ := digitUnit_of_isDigit (u := u) (by simpa using h.2)
    rw [decimalValue_append, List.length_append, List.length_singleton]
    constructor
    · rw [pow_succ]
      omega
    · have hdiv : (10 * decimalValue ds + (u.val - 48)) / 10 = decimalValue ds := by omega
      have hmod : (10 * decimalValue ds + (u.val - 48)) % 10 = u.val - 48 := by omega
      rw [padded, hdiv, hmod, hpad, hunit]

lemma digits_eq_some {n v : ℕ} {s r : JsString} :
    digits n s = some (v, r) ↔ v < 10 ^ n ∧ s = padded n v ++ r := by
  unfold digits
  constructor
  · intro h
    split_ifs at h with hs
    obtain ⟨hlen, hall⟩ := hs
    have hpair := Option.some.inj h
    rw [Prod.mk.injEq] at hpair
    obtain ⟨rfl, rfl⟩ := hpair
    obtain ⟨hlt, hpad⟩ := padded_decimalValue _ hall
    rw [hlen] at hlt hpad
    exact ⟨hlt, by rw [hpad, List.take_append_drop]⟩
  · rintro ⟨hlt, rfl⟩
    have htake : (padded n v ++ r).take n = padded n v := List.take_left' (length_padded n v)
    have hdrop : (padded n v ++ r).drop n = r := List.drop_left' (length_padded n v)
    rw [htake, hdrop, if_pos ⟨length_padded n v, all_padded n v⟩, decimalValue_padded hlt]

lemma literal_eq_some {c : CodeUnit} {s r : JsString} : literal c s = some r ↔ s = c :: r := by
  cases s with
  | nil => simp [literal]
  | cons u us =>
    simp only [literal, List.cons.injEq]
    split_ifs with hu <;> simp [hu]

lemma fraction_eq_some {s r : JsString} (hr : ∀ u ∈ r.head?, isDigit u = false ∧ u ≠ unit '.') :
    fraction s = some r ↔
      ∃ f, (∀ ds, f = some ds → ds ≠ [] ∧ ds.all isDigit = true) ∧ s = secfracText f ++ r := by
  constructor
  · intro h
    cases s with
    | nil => exact ⟨none, by simp, by simpa [fraction, secfracText] using h⟩
    | cons u us =>
      rw [fraction] at h
      split_ifs at h with hu hds
      · refine ⟨some (us.takeWhile isDigit), ?_, ?_⟩
        · intro ds hsome
          rw [← Option.some.inj hsome]
          exact ⟨hds, List.all_takeWhile⟩
        · rw [hu, ← Option.some.inj h, secfracText, List.cons_append, List.takeWhile_append_dropWhile]
      · exact ⟨none, by simp, by simpa [secfracText] using h⟩
  · rintro ⟨f, hf, rfl⟩
    cases f with
    | none =>
      cases r with
      | nil => rfl
      | cons u us =>
        have hu := (hr u rfl).2
        simp [secfracText, fraction, hu]
    | some ds =>
      obtain ⟨hne, hall⟩ := hf ds rfl
      have hall' : ∀ u ∈ ds, isDigit u = true := List.all_eq_true.mp hall
      have hhead : r.takeWhile isDigit = [] ∧ r.dropWhile isDigit = r := by
        cases r with
        | nil => exact ⟨rfl, rfl⟩
        | cons u us => simp [(hr u rfl).1]
      have htake : (ds ++ r).takeWhile isDigit = ds := by
        rw [List.takeWhile_append_of_pos hall', hhead.1, List.append_nil]
      have hdrop : (ds ++ r).dropWhile isDigit = r := by
        rw [List.dropWhile_append_of_pos hall', hhead.2]
      simp [secfracText, fraction, htake, hdrop, hne]

end Fields

section Reading

def Offset.groups : Offset → ℕ × ℕ
  | .utc => (0, 0)
  | .shift _ hour minute => (hour, minute)

def Offset.Fits : Offset → Prop
  | .utc => True
  | .shift _ hour minute => hour < 10 ^ 2 ∧ minute < 10 ^ 2

lemma offset_eq_some {s : JsString} {g : ℕ × ℕ} :
    offset s = some g ↔ ∃ o : Offset, o.Fits ∧ s = o.text (unit 'Z') ∧ g = o.groups := by
  have hZ : unit '+' ≠ unit 'Z' ∧ unit '-' ≠ unit 'Z' := by decide
  constructor
  · intro h
    cases s with
    | nil => cases h
    | cons u us =>
      rw [offset] at h
      split_ifs at h with hz hnil hsign
      · exact ⟨.utc, trivial, by rw [hz, hnil]; rfl, (Option.some.inj h).symm⟩
      · simp only [Option.bind_eq_bind, Option.bind_eq_some_iff] at h
        obtain ⟨⟨hour, r⟩, hhour, r', hcolon, ⟨minute, r''⟩, hminute, hend⟩ := h
        split_ifs at hend with hr
        obtain ⟨hh, rfl⟩ := digits_eq_some.mp hhour
        obtain ⟨hm, rfl⟩ := digits_eq_some.mp hminute
        obtain rfl := literal_eq_some.mp hcolon
        refine ⟨.shift (u = unit '-') hour minute, ⟨hh, hm⟩, ?_, (Option.some.inj hend).symm⟩
        obtain rfl : r'' = [] := hr
        rw [List.append_nil, Offset.text]
        rcases hsign with rfl | rfl <;> rfl
  · rintro ⟨o, hfits, rfl, rfl⟩
    cases o with
    | utc => rfl
    | shift negative hour minute =>
      have hhour : digits 2 (padded 2 hour ++ unit ':' :: padded 2 minute) =
          some (hour, unit ':' :: padded 2 minute) := digits_eq_some.mpr ⟨hfits.1, rfl⟩
      have hminute : digits 2 (padded 2 minute) = some (minute, []) :=
        digits_eq_some.mpr ⟨hfits.2, (List.append_nil _).symm⟩
      cases negative with
      | false =>
        simp [Offset.text, offset, hZ.1, hhour, literal, hminute, Offset.groups]
      | true =>
        simp [Offset.text, offset, hZ.2, hhour, literal, hminute, Offset.groups]

lemma head_offset_text (o : Offset) :
    ∀ u ∈ (o.text (unit 'Z')).head?, isDigit u = false ∧ u ≠ unit '.' := by
  intro u hu
  cases o with
  | utc =>
    obtain rfl : unit 'Z' = u := by simpa [Offset.text] using hu
    decide
  | shift negative hour minute =>
    cases negative with
    | false =>
      obtain rfl : unit '+' = u := by simpa [Offset.text] using hu
      decide
    | true =>
      obtain rfl : unit '-' = u := by simpa [Offset.text] using hu
      decide

/-- Fields that fit their width, in any range. -/
structure Stamp.Fits (st : Stamp) : Prop where
  year : st.year < 10 ^ 4
  month : st.month < 10 ^ 2
  day : st.day < 10 ^ 2
  hour : st.hour < 10 ^ 2
  minute : st.minute < 10 ^ 2
  second : st.second < 10 ^ 2
  secfrac : ∀ ds, st.secfrac = some ds → ds ≠ [] ∧ ds.all isDigit = true
  offset : st.offset.Fits

def Stamp.groups (st : Stamp) : Match :=
  ⟨st.year, st.month, st.day, st.hour, st.minute, st.second, st.offset.groups.1,
    st.offset.groups.2⟩

/-- The regular expression matches the texts of fields that fit, and reads them back. -/
lemma matchDateTime_eq_some {s : JsString} {m : Match} :
    matchDateTime s = some m ↔
      ∃ st : Stamp, st.Fits ∧ s = st.text (unit 'T') (unit 'Z') ∧ m = st.groups := by
  simp only [matchDateTime, Option.bind_eq_bind, Option.bind_eq_some_iff]
  constructor
  · rintro ⟨⟨year, s1⟩, hyear, s2, hl1, ⟨month, s3⟩, hmonth, s4, hl2, ⟨day, s5⟩, hday, s6, hl3,
      ⟨hour, s7⟩, hhour, s8, hl4, ⟨minute, s9⟩, hminute, s10, hl5, ⟨second, s11⟩, hsecond, s12, hfrac,
      ⟨oh, om⟩, hoff, hm⟩
    obtain ⟨o, ho, rfl, hgroups⟩ := offset_eq_some.mp hoff
    obtain ⟨f, hf, rfl⟩ := (fraction_eq_some (head_offset_text o)).mp hfrac
    obtain ⟨wy, rfl⟩ := digits_eq_some.mp hyear
    obtain rfl := literal_eq_some.mp hl1
    obtain ⟨wm, rfl⟩ := digits_eq_some.mp hmonth
    obtain rfl := literal_eq_some.mp hl2
    obtain ⟨wd, rfl⟩ := digits_eq_some.mp hday
    obtain rfl := literal_eq_some.mp hl3
    obtain ⟨wh, rfl⟩ := digits_eq_some.mp hhour
    obtain rfl := literal_eq_some.mp hl4
    obtain ⟨wn, rfl⟩ := digits_eq_some.mp hminute
    obtain rfl := literal_eq_some.mp hl5
    obtain ⟨ws, rfl⟩ := digits_eq_some.mp hsecond
    refine ⟨⟨year, month, day, hour, minute, second, f, o⟩,
      ⟨wy, wm, wd, wh, wn, ws, hf, ho⟩, rfl, ?_⟩
    rw [← Option.some.inj hm, Stamp.groups, ← hgroups]
  · rintro ⟨st, hfits, rfl, rfl⟩
    exact ⟨_, digits_eq_some.mpr ⟨hfits.year, rfl⟩, _, literal_eq_some.mpr rfl,
      _, digits_eq_some.mpr ⟨hfits.month, rfl⟩, _, literal_eq_some.mpr rfl,
      _, digits_eq_some.mpr ⟨hfits.day, rfl⟩, _, literal_eq_some.mpr rfl,
      _, digits_eq_some.mpr ⟨hfits.hour, rfl⟩, _, literal_eq_some.mpr rfl,
      _, digits_eq_some.mpr ⟨hfits.minute, rfl⟩, _, literal_eq_some.mpr rfl,
      _, digits_eq_some.mpr ⟨hfits.second, rfl⟩,
      _, (fraction_eq_some (head_offset_text st.offset)).mpr ⟨st.secfrac, hfits.secfrac, rfl⟩,
      _, offset_eq_some.mpr ⟨st.offset, hfits.offset, rfl, rfl⟩, rfl⟩

lemma daysInMonth_le (year month : ℕ) : daysInMonth year month ≤ 31 := by
  unfold daysInMonth
  split_ifs <;> omega

lemma Offset.Valid.fits {o : Offset} (h : o.Valid) : o.Fits := by
  cases o with
  | utc => trivial
  | shift negative hour minute =>
    obtain ⟨hhour, hminute⟩ := h
    constructor <;> omega

lemma Stamp.Valid.fits {st : Stamp} (h : st.Valid) : st.Fits := by
  have hday := daysInMonth_le st.year st.month
  have hsecond : st.second ≤ 60 := by
    rcases h.second with hs | ⟨hs, -⟩ <;> omega
  have hmonth := h.month
  have hdays := h.day
  exact {
    year := by have := h.year; omega
    month := by omega
    day := by omega
    hour := by have := h.hour; omega
    minute := by have := h.minute; omega
    second := by omega
    secfrac := h.secfrac
    offset := h.offset.fits }

lemma Offset.valid_iff {o : Offset} : o.Valid ↔ o.groups.1 ≤ 23 ∧ o.groups.2 ≤ 59 := by
  cases o <;> simp [Offset.Valid, Offset.groups]

/-- The date-times the function accepts. -/
theorem isRfc3339DateTime_iff (s : JsString) :
    isRfc3339DateTime s = true ↔ IsPlainDateTime s := by
  constructor
  · intro h
    unfold isRfc3339DateTime at h
    split at h
    · cases h
    · next m hmatch =>
      obtain ⟨st, hfits, rfl, rfl⟩ := matchDateTime_eq_some.mp hmatch
      split_ifs at h with hdate htime
      simp only [Stamp.groups, gt_iff_lt, not_or, not_lt] at hdate htime
      obtain ⟨hyear, hmonth, hmonth', hday, hday'⟩ := hdate
      obtain ⟨hhour, hminute, hsecond, hoh, hom⟩ := htime
      refine ⟨st, ?_, hyear, hsecond, rfl⟩
      exact {
        year := by have := hfits.year; omega
        month := ⟨hmonth, hmonth'⟩
        day := ⟨hday, hday'⟩
        hour := hhour
        minute := hminute
        second := Or.inl hsecond
        secfrac := hfits.secfrac
        offset := Offset.valid_iff.mpr ⟨hoh, hom⟩ }
  · rintro ⟨st, hvalid, hyear, hsecond, rfl⟩
    have hmatch := matchDateTime_eq_some.mpr ⟨st, hvalid.fits, rfl, rfl⟩
    obtain ⟨hoh, hom⟩ := Offset.valid_iff.mp hvalid.offset
    have hmonth := hvalid.month
    have hday := hvalid.day
    have hhour := hvalid.hour
    have hminute := hvalid.minute
    simp only [isRfc3339DateTime, hmatch, Stamp.groups]
    rw [if_neg (by omega), if_neg (by omega)]

end Reading

end Appspine.Rfc3339
