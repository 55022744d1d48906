import Appspine.Utf16

/-!
# Reading UTF-8

A decoder takes one byte after another and replaces what cannot be continued by U+FFFD. The bytes
of a well-formed string are read back as that string.
-/
namespace Appspine.Utf16
open JsText

/-- A character that is not complete: how many bytes it needs, what the next one may be, and the
number its bytes spell so far. -/
structure Begun where
  needed : ℕ
  lower : ℕ
  upper : ℕ
  point : ℕ

def REPLACEMENT : CodeUnit := Fin.ofNat 65536 0xFFFD

/-- The units of a code point. -/
def pointUnits (n : ℕ) : JsString :=
  if n < 0x10000 then [Fin.ofNat 65536 n]
  else [Fin.ofNat 65536 (0xD800 + (n - 0x10000) / 0x400),
    Fin.ofNat 65536 (0xDC00 + (n - 0x10000) % 0x400)]

/-- A byte where a character begins. -/
def firstByte (b : ℕ) : JsString × Option Begun :=
  if b < 0x80 then ([Fin.ofNat 65536 b], none)
  else if 0xC2 ≤ b ∧ b < 0xE0 then ([], some ⟨1, 0x80, 0xBF, b - 0xC0⟩)
  else if 0xE0 ≤ b ∧ b < 0xF0 then
    ([], some ⟨2, if b = 0xE0 then 0xA0 else 0x80, if b = 0xED then 0x9F else 0xBF, b - 0xE0⟩)
  else if 0xF0 ≤ b ∧ b < 0xF5 then
    ([], some ⟨3, if b = 0xF0 then 0x90 else 0x80, if b = 0xF4 then 0x8F else 0xBF, b - 0xF0⟩)
  else ([REPLACEMENT], none)

def nextByte : Option Begun → ℕ → JsString × Option Begun
  | none, b => firstByte b
  | some c, b =>
    if c.lower ≤ b ∧ b ≤ c.upper then
      if c.needed = 1 then (pointUnits (c.point * 64 + (b - 0x80)), none)
      else ([], some ⟨c.needed - 1, 0x80, 0xBF, c.point * 64 + (b - 0x80)⟩)
    else (REPLACEMENT :: (firstByte b).1, (firstByte b).2)

def decodeFrom : Option Begun → List UInt8 → JsString
  | none, [] => []
  | some _, [] => [REPLACEMENT]
  | state, b :: bytes =>
    (nextByte state b.toNat).1 ++ decodeFrom (nextByte state b.toNat).2 bytes

/-- `buffer.toString('utf8')`. -/
def decodeUtf8 (bytes : List UInt8) : JsString := decodeFrom none bytes

lemma decodeFrom_cons (state : Option Begun) {n : ℕ} (h : n < 256) (bytes : List UInt8) :
    decodeFrom state (.ofNat n :: bytes) =
      (nextByte state n).1 ++ decodeFrom (nextByte state n).2 bytes := by
  have hn : (UInt8.ofNat n).toNat = n := UInt8.toNat_ofNat_of_lt' h
  cases state <;> rw [decodeFrom, hn]

lemma decodeFrom_first {n : ℕ} {c : Begun} (h : n < 256) (hc : firstByte n = ([], some c))
    (bytes : List UInt8) :
    decodeFrom none (.ofNat n :: bytes) = decodeFrom (some c) bytes := by
  rw [decodeFrom_cons _ h, nextByte, hc, List.nil_append]

lemma decodeFrom_more {needed lower upper point n : ℕ} (h : n < 256) (hlower : lower ≤ n)
    (hupper : n ≤ upper) (bytes : List UInt8) :
    decodeFrom (some ⟨needed + 2, lower, upper, point⟩) (.ofNat n :: bytes) =
      decodeFrom (some ⟨needed + 1, 0x80, 0xBF, point * 64 + (n - 0x80)⟩) bytes := by
  rw [decodeFrom_cons _ h, nextByte, if_pos ⟨hlower, hupper⟩, if_neg (by simp)]
  rfl

lemma decodeFrom_last {lower upper point n : ℕ} (h : n < 256) (hlower : lower ≤ n)
    (hupper : n ≤ upper) (bytes : List UInt8) :
    decodeFrom (some ⟨1, lower, upper, point⟩) (.ofNat n :: bytes) =
      pointUnits (point * 64 + (n - 0x80)) ++ decodeFrom none bytes := by
  rw [decodeFrom_cons _ h, nextByte, if_pos ⟨hlower, hupper⟩, if_pos rfl]

lemma pointUnits_unit {u : CodeUnit} {n : ℕ} (h : n = u.val) : pointUnits n = [u] := by
  have hu := u.isLt
  subst h
  rw [pointUnits, if_pos (by omega), Fin.ofNat_val_eq_self]

lemma pointUnits_pair {u v : CodeUnit} (hu : isHigh u = true) (hv : isLow v = true) {n : ℕ}
    (h : n = 0x10000 + (u.val - 0xD800) * 0x400 + (v.val - 0xDC00)) : pointUnits n = [u, v] := by
  rw [isHigh, decide_eq_true_eq] at hu
  rw [isLow, decide_eq_true_eq] at hv
  have hhigh : 0xD800 + (n - 0x10000) / 0x400 = u.val := by omega
  have hlow : 0xDC00 + (n - 0x10000) % 0x400 = v.val := by omega
  rw [pointUnits, if_neg (by omega), hhigh, hlow, Fin.ofNat_val_eq_self, Fin.ofNat_val_eq_self]

/-- Two bytes, of a unit from U+0080. -/
lemma decodeFrom_two {u : CodeUnit} (h : 0x80 ≤ u.val) (h' : u.val < 0x800) (bytes : List UInt8) :
    decodeFrom none (.ofNat (0xC0 + u.val / 64) :: .ofNat (0x80 + u.val % 64) :: bytes) =
      u :: decodeFrom none bytes := by
  have hfirst : firstByte (0xC0 + u.val / 64) =
      ([], some ⟨1, 0x80, 0xBF, 0xC0 + u.val / 64 - 0xC0⟩) := by
    rw [firstByte, if_neg (by omega), if_pos (by omega)]
  rw [decodeFrom_first (by omega) hfirst, decodeFrom_last (by omega) (by omega) (by omega),
    pointUnits_unit (u := u) (by omega), List.singleton_append]

/-- Three bytes, of a unit from U+0800 that is no surrogate. -/
lemma decodeFrom_three {u : CodeUnit} (h : 0x800 ≤ u.val) (hs : isSurrogate u = false)
    (bytes : List UInt8) :
    decodeFrom none (.ofNat (0xE0 + u.val / 4096) :: .ofNat (0x80 + u.val / 64 % 64) ::
      .ofNat (0x80 + u.val % 64) :: bytes) = u :: decodeFrom none bytes := by
  have hu := u.isLt
  have hscalar : u.val < 0xD800 ∨ 0xE000 ≤ u.val := by
    simp only [isSurrogate, isHigh, isLow, Bool.or_eq_false_iff, decide_eq_false_iff_not] at hs
    omega
  have hfirst : firstByte (0xE0 + u.val / 4096) =
      ([], some ⟨2, if 0xE0 + u.val / 4096 = 0xE0 then 0xA0 else 0x80,
        if 0xE0 + u.val / 4096 = 0xED then 0x9F else 0xBF, 0xE0 + u.val / 4096 - 0xE0⟩) := by
    rw [firstByte, if_neg (by omega), if_neg (by omega), if_pos (by omega)]
  rw [decodeFrom_first (by omega) hfirst,
    decodeFrom_more (by omega) (by split_ifs <;> omega) (by split_ifs <;> omega),
    decodeFrom_last (by omega) (by omega) (by omega), pointUnits_unit (u := u) (by omega),
    List.singleton_append]

/-- The bytes of a unit that is no surrogate. -/
lemma decodeFrom_unit {u : CodeUnit} (hs : isSurrogate u = false) (bytes : List UInt8) :
    decodeFrom none (unitUtf8 u ++ bytes) = u :: decodeFrom none bytes := by
  unfold unitUtf8
  split_ifs with hone htwo hsurrogate
  · rw [List.singleton_append, decodeFrom_cons _ (by omega), nextByte, firstByte, if_pos hone,
      Fin.ofNat_val_eq_self]
    rfl
  · exact decodeFrom_two (by omega) htwo bytes
  · rw [hs] at hsurrogate
    cases hsurrogate
  · exact decodeFrom_three (by omega) hs bytes

/-- The bytes of a pair. -/
lemma decodeFrom_pair {u v : CodeUnit} (hu : isHigh u = true) (hv : isLow v = true)
    (bytes : List UInt8) :
    decodeFrom none (pairUtf8 u v ++ bytes) = u :: v :: decodeFrom none bytes := by
  have hhigh := hu
  have hlow := hv
  rw [isHigh, decide_eq_true_eq] at hhigh
  rw [isLow, decide_eq_true_eq] at hlow
  obtain ⟨n, hn⟩ : ∃ n, n = 0x10000 + (u.val - 0xD800) * 0x400 + (v.val - 0xDC00) := ⟨_, rfl⟩
  have hbytes : pairUtf8 u v = [.ofNat (0xF0 + n / 262144), .ofNat (0x80 + n / 4096 % 64),
      .ofNat (0x80 + n / 64 % 64), .ofNat (0x80 + n % 64)] := by
    rw [hn]
    rfl
  have hfirst : firstByte (0xF0 + n / 262144) =
      ([], some ⟨3, if 0xF0 + n / 262144 = 0xF0 then 0x90 else 0x80,
        if 0xF0 + n / 262144 = 0xF4 then 0x8F else 0xBF, 0xF0 + n / 262144 - 0xF0⟩) := by
    rw [firstByte, if_neg (by omega), if_neg (by omega), if_neg (by omega), if_pos (by omega)]
  rw [hbytes, List.cons_append, decodeFrom_first (by omega) hfirst, List.cons_append,
    decodeFrom_more (by omega) (by split_ifs <;> omega) (by split_ifs <;> omega), List.cons_append,
    decodeFrom_more (by omega) (by omega) (by omega), List.singleton_append,
    decodeFrom_last (by omega) (by omega) (by omega), pointUnits_pair hu hv (by omega)]
  rfl

/-- A well-formed string is read back from its bytes. -/
theorem decodeUtf8_utf8 {s : JsString} (h : wellFormed s = true) : decodeUtf8 (utf8 s) = s := by
  rw [decodeUtf8]
  induction s using utf8.induct with
  | case1 => rfl
  | case2 u =>
    have hs : isSurrogate u = false := by simpa [wellFormed] using h
    have hunit := decodeFrom_unit hs []
    rwa [List.append_nil] at hunit
  | case3 u v us hpair ih =>
    rw [wellFormed, if_pos hpair] at h
    rw [Bool.and_eq_true] at hpair
    rw [utf8, if_pos (by rw [Bool.and_eq_true]; exact hpair),
      decodeFrom_pair hpair.1 hpair.2, ih h]
  | case4 u v us hpair ih =>
    rw [wellFormed, if_neg hpair, Bool.and_eq_true, Bool.not_eq_true'] at h
    rw [utf8, if_neg hpair, decodeFrom_unit h.1, ih h.2]

end Appspine.Utf16
