import Appspine.JsText

/-!
# Surrogates and UTF-8 length

Which strings are well formed (every surrogate is half of a pair), and how many
bytes a string takes in UTF-8, a lone surrogate being encoded as U+FFFD.
-/
namespace Appspine.Utf16
open JsText

def isHigh (u : CodeUnit) : Bool := decide (0xD800 ≤ u.val ∧ u.val < 0xDC00)

def isLow (u : CodeUnit) : Bool := decide (0xDC00 ≤ u.val ∧ u.val < 0xE000)

def isSurrogate (u : CodeUnit) : Bool := isHigh u || isLow u

/-- `isWellFormed()`. -/
def wellFormed : JsString → Bool
  | [] => true
  | [u] => !isSurrogate u
  | u :: v :: us =>
    if isHigh u && isLow v then wellFormed us else !isSurrogate u && wellFormed (v :: us)

def unitBytes (u : CodeUnit) : ℕ := if u.val < 0x80 then 1 else if u.val < 0x800 then 2 else 3

/-- `Buffer.byteLength(s)`. -/
def byteLength : JsString → ℕ
  | [] => 0
  | [u] => unitBytes u
  | u :: v :: us =>
    if isHigh u && isLow v then 4 + byteLength us else unitBytes u + byteLength (v :: us)

/-- The encoding of one unit that is not half of a pair. -/
def unitUtf8 (u : CodeUnit) : List UInt8 :=
  if u.val < 0x80 then [.ofNat u.val]
  else if u.val < 0x800 then [.ofNat (0xC0 + u.val / 64), .ofNat (0x80 + u.val % 64)]
  else if isSurrogate u then [0xEF, 0xBF, 0xBD]
  else [.ofNat (0xE0 + u.val / 4096), .ofNat (0x80 + u.val / 64 % 64), .ofNat (0x80 + u.val % 64)]

def pairUtf8 (u v : CodeUnit) : List UInt8 :=
  let n := 0x10000 + (u.val - 0xD800) * 0x400 + (v.val - 0xDC00)
  [.ofNat (0xF0 + n / 262144), .ofNat (0x80 + n / 4096 % 64), .ofNat (0x80 + n / 64 % 64),
    .ofNat (0x80 + n % 64)]

/-- `Buffer.from(s, 'utf8')`. -/
def utf8 : JsString → List UInt8
  | [] => []
  | [u] => unitUtf8 u
  | u :: v :: us =>
    if isHigh u && isLow v then pairUtf8 u v ++ utf8 us else unitUtf8 u ++ utf8 (v :: us)

def isAscii (s : JsString) : Bool := s.all (fun u => decide (u.val < 0x80))

lemma length_unitUtf8 (u : CodeUnit) : (unitUtf8 u).length = unitBytes u := by
  unfold unitUtf8 unitBytes
  split_ifs <;> rfl

lemma length_utf8 (s : JsString) : (utf8 s).length = byteLength s := by
  induction s using utf8.induct with
  | case1 => rfl
  | case2 u => exact length_unitUtf8 u
  | case3 u v us hpair ih =>
    simp only [utf8, byteLength, hpair, if_true, List.length_append, ih]
    rfl
  | case4 u v us hpair ih =>
    rw [utf8, byteLength, if_neg hpair, if_neg hpair, List.length_append, length_unitUtf8, ih]

lemma utf8_ascii {s : JsString} (h : isAscii s = true) :
    utf8 s = s.map (fun u => UInt8.ofNat u.val) := by
  simp only [isAscii, List.all_eq_true, decide_eq_true_eq] at h
  induction s using utf8.induct with
  | case1 => rfl
  | case2 u => simp [utf8, unitUtf8, h u (by simp)]
  | case3 u v us hpair ih =>
    simp only [Bool.and_eq_true, isHigh, decide_eq_true_eq] at hpair
    have hu := h u (by simp)
    omega
  | case4 u v us hpair ih =>
    rw [utf8, if_neg hpair, ih (fun w hw => h w (List.mem_cons_of_mem _ hw))]
    simp [unitUtf8, h u (by simp)]

/-- Texts of ASCII characters are told apart by their bytes. -/
lemma utf8_inj_of_ascii {s t : JsString} (hs : isAscii s = true) (ht : isAscii t = true)
    (h : utf8 s = utf8 t) : s = t := by
  rw [utf8_ascii hs, utf8_ascii ht] at h
  simp only [isAscii, List.all_eq_true, decide_eq_true_eq] at hs ht
  induction s generalizing t with
  | nil => simpa using h.symm
  | cons u us ih =>
    cases t with
    | nil => simp at h
    | cons v vs =>
      simp only [List.map_cons, List.cons.injEq] at h
      have hu := hs u (by simp)
      have hv := ht v (by simp)
      have huv : u = v := by
        have hnat := congrArg UInt8.toNat h.1
        simp only [UInt8.toNat_ofNat'] at hnat
        apply Fin.ext
        omega
      rw [huv, ih h.2 (fun w hw => hs w (List.mem_cons_of_mem _ hw))
        (fun w hw => ht w (List.mem_cons_of_mem _ hw))]

theorem isLow_not_high {u : CodeUnit} (h : isLow u = true) : isHigh u = false := by
  simp only [isLow, isHigh, decide_eq_true_eq, decide_eq_false_iff_not] at h ⊢
  omega

theorem wellFormed_cons_of_not_surrogate {u : CodeUnit} (h : isSurrogate u = false)
    (s : JsString) : wellFormed (u :: s) = wellFormed s := by
  have hh : isHigh u = false := (Bool.or_eq_false_iff.mp h).1
  cases s with
  | nil => simp [wellFormed, h]
  | cons v us => simp [wellFormed, h, hh]

/-- Well-formed texts concatenate. -/
theorem wellFormed_append {s t : JsString} (hs : wellFormed s = true) (ht : wellFormed t = true) :
    wellFormed (s ++ t) = true := by
  induction s using wellFormed.induct with
  | case1 => exact ht
  | case2 u =>
    have hu : isSurrogate u = false := by simpa [wellFormed] using hs
    rw [List.singleton_append, wellFormed_cons_of_not_surrogate hu]
    exact ht
  | case3 u v us hpair ih =>
    simp only [wellFormed, hpair, if_true] at hs
    simpa [wellFormed, hpair] using ih hs
  | case4 u v us hpair ih =>
    rw [wellFormed, if_neg hpair, Bool.and_eq_true] at hs
    simpa [wellFormed, hpair, hs.1] using ih hs.2

theorem wellFormed_of_no_surrogate {s : JsString} (h : ∀ u ∈ s, isSurrogate u = false) :
    wellFormed s = true := by
  induction s with
  | nil => rfl
  | cons u us ih =>
    rw [wellFormed_cons_of_not_surrogate (h u (by simp))]
    exact ih (fun v hv => h v (List.mem_cons_of_mem u hv))

theorem isSurrogate_of_lt {u : CodeUnit} (h : u.val < 0xD800) : isSurrogate u = false := by
  simp only [isSurrogate, isHigh, isLow, Bool.or_eq_false_iff, decide_eq_false_iff_not]
  omega

theorem wellFormed_join {sep : JsString} {parts : List JsString} (hsep : wellFormed sep = true)
    (h : ∀ p ∈ parts, wellFormed p = true) : wellFormed (join sep parts) = true := by
  induction parts with
  | nil => rfl
  | cons p ps ih =>
    cases ps with
    | nil => simpa using h p (by simp)
    | cons q qs =>
      have hrest := ih (fun r hr => h r (List.mem_cons_of_mem p hr))
      have hp := h p (by simp)
      rw [join_cons_cons]
      exact wellFormed_append (wellFormed_append hp hsep) hrest

end Appspine.Utf16
