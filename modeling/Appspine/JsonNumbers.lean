import Appspine.JsonParse

/-!
# Integers as JSON numbers

The integers with their decimal texts are numbers of the language.
-/
namespace Appspine.JsonText
open JsText

def digitUnit (d : ℕ) : CodeUnit := Fin.ofNat 65536 (48 + d)

def natText (n : ℕ) : JsString :=
  if n = 0 then [unit '0'] else (Nat.digits 10 n).reverse.map digitUnit

def intText (n : ℤ) : JsString :=
  if n < 0 then unit '-' :: natText n.natAbs else natText n.natAbs

def readInt : JsString → ℤ
  | [] => 0
  | u :: us => if u = unit '-' then -(decimalValue us : ℤ) else (decimalValue (u :: us) : ℤ)

theorem val_digitUnit {d : ℕ} (h : d < 10) : (digitUnit d).val = 48 + d := by
  simp only [digitUnit, Fin.ofNat]
  omega

/-- Every character of a decimal text is a digit. -/
theorem natText_units (n : ℕ) : ∀ u ∈ natText n, 48 ≤ u.val ∧ u.val ≤ 57 := by
  intro u hu
  unfold natText at hu
  split_ifs at hu with hn
  · rw [List.mem_singleton.mp hu]
    decide
  · obtain ⟨d, hd, rfl⟩ := List.mem_map.mp hu
    have hlt := Nat.digits_lt_base (by norm_num) (List.mem_reverse.mp hd)
    rw [val_digitUnit hlt]
    omega

theorem natText_ne_nil (n : ℕ) : natText n ≠ [] := by
  unfold natText
  split_ifs with hn
  · simp
  · simpa [Nat.digits_eq_nil_iff_eq_zero] using hn

theorem decimalValue_natText (n : ℕ) : decimalValue (natText n) = n := by
  unfold natText
  split_ifs with hn
  · rw [hn]
    rfl
  · have hfold : ∀ ds : List ℕ, (∀ d ∈ ds, d < 10) →
        (ds.map digitUnit).foldr (fun u n => 10 * n + (u.val - 48)) 0 = Nat.ofDigits 10 ds := by
      intro ds hds
      induction ds with
      | nil => rfl
      | cons d ds ih =>
        have hd := val_digitUnit (hds d (by simp))
        rw [List.map_cons, List.foldr_cons, ih (fun e he => hds e (by simp [he])),
          Nat.ofDigits_cons, hd]
        omega
    rw [decimalValue, List.map_reverse, List.foldl_reverse,
      hfold _ (fun d hd => Nat.digits_lt_base (by norm_num) hd), Nat.ofDigits_digits]

theorem natText_head (n : ℕ) : ∃ u us, natText n = u :: us ∧ u ≠ unit '-' := by
  obtain ⟨u, us, hcons⟩ := List.exists_cons_of_ne_nil (natText_ne_nil n)
  refine ⟨u, us, hcons, ?_⟩
  rintro rfl
  have := natText_units n (unit '-') (by simp [hcons])
  revert this
  decide

theorem readInt_intText (n : ℤ) : readInt (intText n) = n := by
  unfold intText
  split_ifs with hn
  · simp only [readInt, if_true, decimalValue_natText]
    omega
  · obtain ⟨u, us, hcons, hu⟩ := natText_head n.natAbs
    have hval := decimalValue_natText n.natAbs
    rw [hcons] at hval
    rw [hcons, readInt, if_neg hu, hval]
    omega

theorem isNumberUnit_of_digit {u : CodeUnit} (h : 48 ≤ u.val ∧ u.val ≤ 57) :
    isNumberUnit u = true := by
  simp only [isNumberUnit, decide_eq_true_eq]
  exact Or.inl h

instance : JsonNumber ℤ where
  text := intText
  ofText t := if intText (readInt t) = t then some (readInt t) else none
  text_ne_nil n := by
    unfold intText
    split_ifs
    · simp
    · exact natText_ne_nil _
  text_units n u hu := by
    unfold intText at hu
    split_ifs at hu
    · rcases List.mem_cons.mp hu with rfl | hu
      · decide
      · exact isNumberUnit_of_digit (natText_units _ u hu)
    · exact isNumberUnit_of_digit (natText_units _ u hu)
  ofText_text n := by simp only [readInt_intText, if_true]

end Appspine.JsonText
