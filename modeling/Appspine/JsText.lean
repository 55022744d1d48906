import Mathlib

/-!
# JavaScript strings

A string is its sequence of UTF-16 code units, lone surrogates included, so that
`<`, `sort`, `indexOf`, `split` and template literals act on it as the language does.
-/
namespace Appspine.JsText

abbrev CodeUnit := Fin 65536

abbrev JsString := List CodeUnit

instance neZero_units : NeZero (65535 + 1) := ⟨by decide⟩

instance lawfulBEq_codeUnit : LawfulBEq CodeUnit := inferInstance

instance lawfulBEq_jsString : LawfulBEq JsString := inferInstance

instance lawfulBEq_entry : LawfulBEq (JsString × JsString) := inferInstance

/-- UTF-16 encoding of one scalar value. -/
def encodeChar (c : Char) : JsString :=
  let n := c.val.toNat
  if n < 0x10000 then [Fin.ofNat 65536 n]
  else [Fin.ofNat 65536 (0xD800 + (n - 0x10000) / 0x400),
    Fin.ofNat 65536 (0xDC00 + (n - 0x10000) % 0x400)]

/-- A string literal of the source. -/
def js (s : String) : JsString := s.toList.flatMap encodeChar

def unit (c : Char) : CodeUnit := Fin.ofNat 65536 c.val.toNat

/-- `s.startsWith(p)`. -/
def startsWith (s p : JsString) : Bool := p.isPrefixOf s

/-- `value || fallback` on strings: the empty string is falsy. -/
def orDefault (value fallback : JsString) : JsString := if value = [] then fallback else value

/-- The text after the last `c`, the whole text when there is none. -/
def afterLast (c : CodeUnit) (s : JsString) : JsString :=
  (s.reverse.takeWhile (· ≠ c)).reverse

/-- The text before the first `c`, and the text after it when there is one. -/
def breakAt (c : CodeUnit) : JsString → JsString × Option JsString
  | [] => ([], none)
  | u :: us => if u = c then ([], some us) else
      let r := breakAt c us
      (u :: r.1, r.2)

/-- The text before the first occurrence of `sep`, and the text after it. -/
def breakOn (sep : JsString) : JsString → JsString × Option JsString
  | [] => if sep = [] then ([], some []) else ([], none)
  | u :: us => if sep.isPrefixOf (u :: us) then ([], some ((u :: us).drop sep.length)) else
      let r := breakOn sep us
      (u :: r.1, r.2)

/-- `parts.join(sep)`. -/
def join (sep : JsString) (parts : List JsString) : JsString := List.intercalate sep parts

@[simp] theorem join_nil (sep : JsString) : join sep [] = [] := rfl

@[simp] theorem join_singleton (sep p : JsString) : join sep [p] = p := by
  simp [join, List.intercalate]

theorem join_cons_cons (sep p q : JsString) (ps : List JsString) :
    join sep (p :: q :: ps) = p ++ sep ++ join sep (q :: ps) := by
  simp [join, List.intercalate]

theorem startsWith_iff {s p : JsString} : startsWith s p = true ↔ p <+: s := by
  simp [startsWith, List.isPrefixOf_iff_prefix]

@[simp] theorem orDefault_nil (d : JsString) : orDefault [] d = d := rfl

theorem orDefault_of_ne {s : JsString} (d : JsString) (h : s ≠ []) : orDefault s d = s := by
  simp [orDefault, h]

theorem orDefault_ne_nil {s d : JsString} (h : d ≠ []) : orDefault s d ≠ [] := by
  unfold orDefault
  split_ifs with hs
  · exact h
  · exact hs

theorem breakAt_fst_of_notMem {c : CodeUnit} {s : JsString} (h : c ∉ s) :
    breakAt c s = (s, none) := by
  induction s with
  | nil => rfl
  | cons u us ih =>
    simp only [List.mem_cons, not_or] at h
    simp [breakAt, Ne.symm h.1, ih h.2]

/-- A separator that does not occur before it splits a text where it was put. -/
theorem breakAt_append {c : CodeUnit} {s t : JsString} (h : c ∉ s) :
    breakAt c (s ++ c :: t) = (s, some t) := by
  induction s with
  | nil => simp [breakAt]
  | cons u us ih =>
    simp only [List.mem_cons, not_or] at h
    simp [breakAt, Ne.symm h.1, ih h.2]

/-- A text splits at a separator whose first unit does not occur before it. -/
theorem breakOn_append {c : CodeUnit} {cs s t : JsString} (h : c ∉ s) :
    breakOn (c :: cs) (s ++ (c :: cs) ++ t) = (s, some t) := by
  induction s with
  | nil =>
    have hprefix : (c :: cs).isPrefixOf (c :: (cs ++ t)) = true :=
      List.isPrefixOf_iff_prefix.mpr ⟨t, rfl⟩
    simp [breakOn, hprefix]
  | cons u us ih =>
    simp only [List.mem_cons, not_or] at h
    have hne : (c :: cs).isPrefixOf (u :: (us ++ c :: (cs ++ t))) = false := by
      simp [List.isPrefixOf, h.1]
    have hrec := ih h.2
    simp only [List.append_assoc, List.cons_append] at hrec ⊢
    simp [breakOn, hne, hrec]

/-- Two texts cut at a separator that neither head contains agree on both sides of it. -/
theorem append_cons_inj {c : CodeUnit} {s s' t t' : JsString} (hs : c ∉ s) (hs' : c ∉ s')
    (h : s ++ c :: t = s' ++ c :: t') : s = s' ∧ t = t' := by
  have hb : breakAt c (s ++ c :: t) = breakAt c (s' ++ c :: t') := by rw [h]
  rw [breakAt_append hs, breakAt_append hs'] at hb
  simpa using hb

/-- Two texts cut at a separator that neither rest contains agree on both sides of it. -/
lemma append_cons_inj_right {c : CodeUnit} {s s' t t' : JsString} (ht : c ∉ t) (ht' : c ∉ t')
    (h : s ++ c :: t = s' ++ c :: t') : s = s' ∧ t = t' := by
  have hrev : t.reverse ++ c :: s.reverse = t'.reverse ++ c :: s'.reverse := by
    simpa using congrArg List.reverse h
  have hpair := append_cons_inj (by simpa using ht) (by simpa using ht') hrev
  exact ⟨List.reverse_inj.mp hpair.2, List.reverse_inj.mp hpair.1⟩

lemma join_append_singleton {sep : JsString} {parts : List JsString} (h : parts ≠ [])
    (s : JsString) : join sep (parts ++ [s]) = join sep parts ++ (sep ++ s) := by
  induction parts with
  | nil => exact absurd rfl h
  | cons p ps ih =>
    cases ps with
    | nil => simp [join_cons_cons]
    | cons q qs =>
      have hrec := ih (List.cons_ne_nil q qs)
      simp only [List.cons_append] at hrec ⊢
      rw [join_cons_cons, hrec, join_cons_cons]
      simp

/-- Joined texts are determined by their join when only the first may contain the separator. -/
lemma join_cons_inj {c : CodeUnit} {m m' : JsString} {rest rest' : List JsString}
    (hlen : rest.length = rest'.length) (h : ∀ s ∈ rest, c ∉ s) (h' : ∀ s ∈ rest', c ∉ s)
    (heq : join [c] (m :: rest) = join [c] (m' :: rest')) : m = m' ∧ rest = rest' := by
  induction rest using List.reverseRecOn generalizing rest' with
  | nil =>
    obtain rfl := List.length_eq_zero_iff.mp hlen.symm
    simpa using heq
  | append_singleton rest s ih =>
    obtain ⟨front, last, rfl⟩ : ∃ front last, rest' = front ++ [last] := by
      refine ⟨rest'.dropLast, rest'.getLast ?_, (List.dropLast_append_getLast _).symm⟩
      rintro rfl
      simp at hlen
    rw [← List.cons_append, ← List.cons_append, join_append_singleton (List.cons_ne_nil _ _),
      join_append_singleton (List.cons_ne_nil _ _)] at heq
    obtain ⟨hfront, rfl⟩ := append_cons_inj_right (h s (by simp)) (h' last (by simp)) heq
    obtain ⟨rfl, rfl⟩ := ih (by simpa using hlen) (fun t ht => h t (by simp [ht]))
      (fun t ht => h' t (by simp [ht])) hfront
    exact ⟨rfl, rfl⟩

end Appspine.JsText
