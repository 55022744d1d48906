import Appspine.DestinationPolicy

/-!
# Spellings of blocked addresses

The expansion of IPv6 texts against the addresses they denote, and from it what the filter says
of every spelling of an address.
-/
namespace Appspine.DestinationPolicy
open JsText IpText AddressBlocks Results

section Parsing

lemma digitValue_range {u : CodeUnit} {d : ℕ} (h : digitValue u = some d) :
    (48 ≤ u.val ∧ u.val < 91) ∨ (96 < u.val ∧ u.val < 123) := by
  have hunits : (unit '0').val = 48 ∧ (unit '9').val = 57 ∧ (unit 'a').val = 97 ∧
      (unit 'z').val = 122 ∧ (unit 'A').val = 65 ∧ (unit 'Z').val = 90 := by decide
  unfold digitValue at h
  simp only [Fin.le_def] at h
  split_ifs at h <;> omega

lemma isWhiteSpace_of_digit {u : CodeUnit} {d : ℕ} (h : digitValue u = some d) :
    isWhiteSpace u = false := by
  have hrange := digitValue_range h
  unfold isWhiteSpace
  simp only [decide_eq_false_iff_not]
  omega

lemma not_isLineTerminator_of_digit {u : CodeUnit} {d : ℕ} (h : digitValue u = some d) :
    isLineTerminator u = false := by
  have hrange := digitValue_range h
  unfold isLineTerminator
  simp only [decide_eq_false_iff_not]
  omega

/-- Hexadecimal digits are read up to their end, or to the dot after them. -/
lemma parseInt16_append {s rest : JsString} {n : ℕ} (h : digits 16 s = some n)
    (hrest : rest = [] ∨ rest.head? = some dot) : parseInt16 (s ++ rest) = some (n : ℤ) := by
  have hunits := readDigits_units (digits_eq_some.mp h).2
  obtain ⟨u, us, rfl⟩ := List.exists_cons_of_ne_nil (digits_eq_some.mp h).1
  obtain ⟨d, hd, hu⟩ := hunits u List.mem_cons_self
  have htrim : (u :: us ++ rest).dropWhile isWhiteSpace = u :: us ++ rest := by
    simp [isWhiteSpace_of_digit hu]
  have hsign : ∀ x, digitValue x = none → (u :: us ++ rest).head? ≠ some x := by
    intro x hx heq
    obtain rfl : u = x := by simpa using heq
    rw [hx] at hu
    cases hu
  have hradix : ∀ x, digitValue x = some 33 →
      startsWith (u :: us ++ rest) [unit '0', x] = false := by
    intro x hx
    rw [Bool.eq_false_iff]
    intro hstarts
    obtain ⟨tail, htail⟩ := startsWith_iff.mp hstarts
    rw [List.cons_append, List.cons_append, List.nil_append, List.cons_append] at htail
    have htail := (List.cons.inj htail).2
    cases us with
    | nil =>
      rcases hrest with rfl | hrest
      · cases htail
      · rw [List.nil_append] at htail
        obtain rfl : x = dot := by simpa [← htail] using hrest
        rw [digitValue_separators.1] at hx
        cases hx
    | cons v vs =>
      obtain ⟨rfl, -⟩ := List.cons.inj htail
      obtain ⟨e, he, hv⟩ := hunits x (List.mem_cons_of_mem u List.mem_cons_self)
      rw [hx] at hv
      obtain rfl := Option.some.inj hv
      omega
  have htake : (u :: us ++ rest).takeWhile
      (fun u => (digitValue u).any fun d => decide (d < 16)) = u :: us := by
    have hpos : ∀ v ∈ u :: us, ((digitValue v).any fun d => decide (d < 16)) = true := by
      intro v hv
      obtain ⟨e, he, hvalue⟩ := hunits v hv
      simp [hvalue, he]
    rw [List.takeWhile_append_of_pos hpos]
    rcases hrest with rfl | hrest
    · simp
    · obtain ⟨w, ws, rfl⟩ := List.exists_cons_of_ne_nil (l := rest) (by rintro rfl; cases hrest)
      obtain rfl : w = dot := by simpa using hrest
      simp [digitValue_separators.1]
  have h0x : startsWith (u :: us ++ rest) (js "0x") = false := hradix (unit 'x') (by decide)
  have h0X : startsWith (u :: us ++ rest) (js "0X") = false := hradix (unit 'X') (by decide)
  unfold parseInt16
  simp only [htrim, hsign (unit '-') (by decide), hsign (unit '+') (by decide), or_self, if_false,
    h0x, h0X, Bool.false_eq_true, htake, h, Option.map_some]

lemma parseInt16_digits {s : JsString} {n : ℕ} (h : digits 16 s = some n) :
    parseInt16 s = some (n : ℤ) := by
  simpa using parseInt16_append h (.inl rfl)

/-- Decimal digits are hexadecimal ones. -/
lemma exists_digits16 {s : JsString} {n : ℕ} (h : digits 10 s = some n) :
    ∃ m, digits 16 s = some m := by
  have hgo : ∀ (s : JsString) (acc acc' n : ℕ), readDigits 10 acc s = some n →
      ∃ m, readDigits 16 acc' s = some m := by
    intro s
    induction s with
    | nil => exact fun _ acc' _ _ => ⟨acc', rfl⟩
    | cons u s ih =>
      intro acc acc' n h
      simp only [readDigits, Option.bind_eq_bind, Option.bind_eq_some_iff] at h ⊢
      obtain ⟨d, hd, h⟩ := h
      split_ifs at h with hlt
      obtain ⟨m, hm⟩ := ih _ (acc' * 16 + d) n h
      exact ⟨m, d, hd, by rw [if_pos (by omega)]; exact hm⟩
  obtain ⟨hne, hread⟩ := digits_eq_some.mp h
  obtain ⟨m, hm⟩ := hgo s 0 0 n hread
  exact ⟨m, digits_eq_some.mpr ⟨hne, hm⟩⟩

/-- An IPv4 text is read as its first octet, in base 16. -/
lemma parseInt16_ipv4 {text : JsString} {value : ℕ} (h : ipv4Value text = some value) :
    ∃ n : ℕ, n < 4096 ∧ parseInt16 text = some (n : ℤ) := by
  obtain ⟨p, q, r, s, a, b, c, d, hsplit, ha, -⟩ := ipv4Value_eq_some h
  obtain ⟨hlength, hdigits, -⟩ := octet_eq_some ha
  obtain ⟨n, hn⟩ := exists_digits16 hdigits
  have htext : text = p ++ dot :: (q ++ dot :: (r ++ dot :: s)) := by
    have hjoin := @List.intercalate_splitOn _ text _ _ dot
    rw [hsplit] at hjoin
    simpa [List.intercalate] using hjoin.symm
  have hlt : n < 4096 := calc
    n < 16 ^ p.length := digits_lt hn
    _ ≤ 16 ^ 3 := Nat.pow_le_pow_right (by norm_num) hlength
  exact ⟨n, hlt, htext ▸ parseInt16_append hn (.inr rfl)⟩

lemma digitValue_hexDigit : ∀ d < 16, digitValue (hexDigit d) = some d := by decide

lemma readDigits_hexDigits {ds : List ℕ} (h : ∀ d ∈ ds, d < 16) (acc : ℕ) :
    readDigits 16 acc (ds.map hexDigit) = some (ds.foldl (fun n d => n * 16 + d) acc) := by
  induction ds generalizing acc with
  | nil => rfl
  | cons d ds ih =>
    have hd := h d List.mem_cons_self
    simp only [List.map_cons, readDigits, digitValue_hexDigit d hd, Option.bind_eq_bind,
      Option.bind_some, if_pos hd, List.foldl_cons]
    exact ih (fun e he => h e (List.mem_cons_of_mem d he)) _

/-- A number printed in base 16 is read back. -/
lemma digits_toHex (n : ℕ) : digits 16 (toHex n) = some n := by
  unfold toHex
  split_ifs with hn
  · rw [hn]
    decide
  · have hlt : ∀ d ∈ (Nat.digits 16 n).reverse, d < 16 := fun d hd =>
      Nat.digits_lt_base (by norm_num) (List.mem_reverse.mp hd)
    have hne : (Nat.digits 16 n).reverse.map hexDigit ≠ [] := by
      simpa [Nat.digits_eq_nil_iff_eq_zero] using hn
    refine digits_eq_some.mpr ⟨hne, ?_⟩
    have hfold : ∀ ds : List ℕ, ds.foldr (fun d n => n * 16 + d) 0 = Nat.ofDigits 16 ds := by
      intro ds
      induction ds with
      | nil => rfl
      | cons d ds ih =>
        rw [List.foldr_cons, ih, Nat.ofDigits_cons]
        ring
    rw [readDigits_hexDigits hlt, List.foldl_reverse, hfold, Nat.ofDigits_digits]

lemma length_toHex {n : ℕ} (h : n < 65536) : (toHex n).length ≤ 4 := by
  unfold toHex
  split_ifs with hn
  · simp
  · rw [List.length_map, List.length_reverse, Nat.digits_length_le_iff (by norm_num)]
    exact h

/-- The two groups into which an IPv4 tail is folded. -/
lemma hexGroup_toHex {n : ℕ} (h : n < 65536) : hexGroup (toHex n) = some n :=
  hexGroup_eq_some.mpr ⟨length_toHex h, digits_toHex n⟩

lemma parseInt16_hexGroup {piece : JsString} {n : ℕ} (h : hexGroup piece = some n) :
    parseInt16 piece = some (n : ℤ) :=
  parseInt16_digits (hexGroup_eq_some.mp h).2

end Parsing

section Joins

/-- `::` is not found within a text without colons. -/
lemma breakOn_append_left {s : JsString} (hs : colon ∉ s) (rest : JsString) :
    breakOn (js "::") (s ++ rest) =
      (s ++ (breakOn (js "::") rest).1, (breakOn (js "::") rest).2) := by
  induction s with
  | nil => rfl
  | cons u s ih =>
    have hu : colon ≠ u := fun h => hs (h ▸ List.mem_cons_self)
    have hnot : (js "::").isPrefixOf (u :: (s ++ rest)) = false := by
      have hjs : js "::" = [colon, colon] := by decide
      simp [hjs, List.isPrefixOf, hu]
    rw [List.cons_append, breakOn, hnot, if_neg Bool.false_ne_true,
      ih fun h => hs (List.mem_cons_of_mem u h)]
    rfl

/-- A colon before another unit is no `::`. -/
lemma breakOn_colon {s : JsString} (hs : s.head? ≠ some colon) (hne : s ≠ []) :
    breakOn (js "::") (colon :: s) =
      (colon :: (breakOn (js "::") s).1, (breakOn (js "::") s).2) := by
  obtain ⟨u, us, rfl⟩ := List.exists_cons_of_ne_nil hne
  have hu : colon ≠ u := fun h => hs (by simp [h])
  have hnot : (js "::").isPrefixOf (colon :: u :: us) = false := by
    have hjs : js "::" = [colon, colon] := by decide
    simp [hjs, List.isPrefixOf, hu]
  rw [breakOn, hnot, if_neg Bool.false_ne_true]

lemma head_ne_colon {piece rest : JsString} (h : Piece piece) :
    (piece ++ rest).head? ≠ some colon ∧ piece ++ rest ≠ [] := by
  obtain ⟨u, us, rfl⟩ := List.exists_cons_of_ne_nil h.ne_nil
  refine ⟨?_, List.cons_ne_nil _ _⟩
  intro hu
  obtain rfl : u = colon := by simpa using hu
  exact h.colon List.mem_cons_self

/-- `::` is not found within joined pieces. -/
lemma breakOn_join {ps : List JsString} (hps : ∀ p ∈ ps, Piece p) (rest : JsString) :
    breakOn (js "::") (join [colon] ps ++ rest) =
      (join [colon] ps ++ (breakOn (js "::") rest).1, (breakOn (js "::") rest).2) := by
  induction ps with
  | nil => rfl
  | cons p ps ih =>
    have hp := hps p List.mem_cons_self
    cases ps with
    | nil =>
      rw [join_singleton]
      exact breakOn_append_left hp.colon rest
    | cons q ps =>
      have hrec := ih fun r hr => hps r (List.mem_cons_of_mem p hr)
      obtain ⟨hhead, hne⟩ : (join [colon] (q :: ps) ++ rest).head? ≠ some colon ∧
          join [colon] (q :: ps) ++ rest ≠ [] := by
        have hq := hps q (by simp)
        cases ps with
        | nil =>
          rw [join_singleton]
          exact head_ne_colon hq
        | cons r ps =>
          rw [join_cons_cons, List.append_assoc, List.append_assoc]
          exact head_ne_colon hq
      rw [join_cons_cons, List.append_assoc, List.append_assoc, breakOn_append_left hp.colon,
        List.singleton_append, breakOn_colon hhead hne, hrec]
      simp

lemma join_ne_nil {ps : List JsString} (hps : ∀ p ∈ ps, Piece p) (hne : ps ≠ []) :
    join [colon] ps ≠ [] := by
  obtain ⟨p, ps, rfl⟩ := List.exists_cons_of_ne_nil hne
  have hp := (hps p List.mem_cons_self).ne_nil
  cases ps with
  | nil => simpa using hp
  | cons q ps => simp [join_cons_cons]

lemma parse_join {ps : List JsString} (hps : ∀ p ∈ ps, Piece p) :
    parse (join [colon] ps) = ps.map parseInt16 := by
  unfold parse
  by_cases hne : ps = []
  · rw [hne]
    rfl
  · rw [if_neg (join_ne_nil hps hne)]
    congr 1
    exact List.splitOn_intercalate colon (fun p hp => (hps p hp).colon) hne

/-- The check of the groups, after the expansion. -/
def checkedGroups (groups : List (Option ℤ)) : Option (List ℕ) :=
  if groups.length ≠ 8 then none else validGroups groups

/-- A text without `::` expands to its pieces. -/
lemma expandGroups_join {ps : List JsString} (hps : ∀ p ∈ ps, Piece p) :
    expandGroups (join [colon] ps) = .ok (checkedGroups (ps.map parseInt16)) := by
  have hbreak : breakOn (js "::") (join [colon] ps) = (join [colon] ps, none) := by
    have h := breakOn_join hps []
    have hnil : breakOn (js "::") [] = ([], none) := by decide
    rw [hnil] at h
    simpa using h
  unfold expandGroups
  rw [hbreak]
  simp only [parse_join hps]
  rfl

/-- A text around `::` expands to the pieces before it, zeros and the pieces after it. -/
lemma expandGroups_compressed {ls rs : List JsString} (hls : ∀ p ∈ ls, Piece p)
    (hrs : ∀ p ∈ rs, Piece p) (hlength : ls.length + rs.length ≤ 8) :
    expandGroups (join [colon] ls ++ js "::" ++ join [colon] rs) =
      .ok (checkedGroups (ls.map parseInt16 ++
        List.replicate (8 - (ls.length + rs.length)) (some 0) ++ rs.map parseInt16)) := by
  have hright : breakOn (js "::") (join [colon] rs) = (join [colon] rs, none) := by
    have h := breakOn_join hrs []
    have hnil : breakOn (js "::") [] = ([], none) := by decide
    rw [hnil] at h
    simpa using h
  have hbreak : breakOn (js "::") (join [colon] ls ++ js "::" ++ join [colon] rs) =
      (join [colon] ls, some (join [colon] rs)) := by
    have hsep : breakOn (js "::") (js "::" ++ join [colon] rs) = ([], some (join [colon] rs)) := by
      have hjs : js "::" = [colon, colon] := by decide
      rw [hjs]
      simp [breakOn, List.isPrefixOf]
    rw [List.append_assoc, breakOn_join hls, hsep]
    simp
  unfold expandGroups
  rw [hbreak]
  simp only [hright, parse_join hls, parse_join hrs, List.length_map]
  rw [if_neg (by omega)]
  rfl

end Joins

section Groups

lemma pieces_of_hexGroups {ps : List JsString} {ns : List ℕ}
    (h : List.Forall₂ (fun piece n => hexGroup piece = some n) ps ns) :
    (∀ p ∈ ps, Piece p) ∧ (∀ n ∈ ns, n < 65536) ∧
      ps.map parseInt16 = ns.map fun n : ℕ => some (n : ℤ) := by
  induction h with
  | nil => simp
  | cons hgroup _ ih =>
    obtain ⟨hpieces, hlt, hmap⟩ := ih
    refine ⟨List.forall_mem_cons.mpr ⟨piece_of_hexGroup hgroup, hpieces⟩,
      List.forall_mem_cons.mpr ⟨hexGroup_lt hgroup, hlt⟩, ?_⟩
    rw [List.map_cons, List.map_cons, parseInt16_hexGroup hgroup, hmap]

lemma validGroups_values {ns : List ℕ} (h : ∀ n ∈ ns, n < 65536) :
    validGroups (ns.map fun n : ℕ => some (n : ℤ)) = some ns := by
  unfold validGroups
  induction ns with
  | nil => rfl
  | cons n ns ih =>
    have hn := h n List.mem_cons_self
    have hbound : (0 : ℤ) ≤ n ∧ (n : ℤ) ≤ 0xffff := by omega
    rw [List.map_cons, List.mapM_cons, ih fun m hm => h m (List.mem_cons_of_mem n hm)]
    simp [hbound.2]

lemma checkedGroups_values {ns : List ℕ} (hlength : ns.length = 8) (h : ∀ n ∈ ns, n < 65536) :
    checkedGroups (ns.map fun n : ℕ => some (n : ℤ)) = some ns := by
  unfold checkedGroups
  rw [List.length_map, if_neg (not_not.mpr hlength), validGroups_values h]

/-- The groups of two sides of `::`, the zeros in between. -/
def compressed (head tail : List ℕ) : List ℕ :=
  head ++ List.replicate (8 - (head.length + tail.length)) 0 ++ tail

lemma length_compressed {head tail : List ℕ} (h : head.length + tail.length ≤ 8) :
    (compressed head tail).length = 8 := by
  unfold compressed
  simp only [List.length_append, List.length_replicate]
  omega

lemma compressed_lt {head tail : List ℕ} (hhead : ∀ n ∈ head, n < 65536)
    (htail : ∀ n ∈ tail, n < 65536) : ∀ n ∈ compressed head tail, n < 65536 := by
  intro n hn
  unfold compressed at hn
  simp only [List.mem_append, List.mem_replicate] at hn
  rcases hn with (hn | ⟨-, rfl⟩) | hn
  · exact hhead n hn
  · norm_num
  · exact htail n hn

lemma expandGroups_values {ls rs : List JsString} {head tail : List ℕ} (hls : ∀ p ∈ ls, Piece p)
    (hrs : ∀ p ∈ rs, Piece p) (hhead : ls.map parseInt16 = head.map fun n : ℕ => some (n : ℤ))
    (htail : rs.map parseInt16 = tail.map fun n : ℕ => some (n : ℤ))
    (hheadLt : ∀ n ∈ head, n < 65536) (htailLt : ∀ n ∈ tail, n < 65536)
    (hlength : head.length + tail.length ≤ 8) :
    expandGroups (join [colon] ls ++ js "::" ++ join [colon] rs) =
      .ok (some (compressed head tail)) := by
  have hl : ls.length = head.length := by simpa using congrArg List.length hhead
  have hr : rs.length = tail.length := by simpa using congrArg List.length htail
  rw [expandGroups_compressed hls hrs (by omega), hhead, htail, hl, hr]
  have hzeros : List.replicate (8 - (head.length + tail.length)) (some (0 : ℤ)) =
      (List.replicate (8 - (head.length + tail.length)) 0).map fun n : ℕ => some (n : ℤ) := by
    simp
  rw [hzeros, ← List.map_append, ← List.map_append]
  exact congrArg Except.ok (checkedGroups_values (length_compressed hlength)
    (compressed_lt hheadLt htailLt))

end Groups

section DottedTails

lemma afterLast_append {s : JsString} (hs : colon ∉ s) (x : JsString) :
    afterLast colon (x ++ colon :: s) = s := by
  have htake : (s.reverse ++ colon :: x.reverse).takeWhile (· ≠ colon) = s.reverse := by
    rw [List.takeWhile_append_of_pos]
    · simp
    · intro u hu
      have hne : u ≠ colon := fun h => hs (h ▸ List.mem_reverse.mp hu)
      simpa using hne
  unfold afterLast
  rw [List.reverse_append, List.reverse_cons, List.append_assoc, List.singleton_append, htake,
    List.reverse_reverse]

lemma append_afterLast (text : JsString) :
    text.take (text.length - (afterLast colon text).length) ++ afterLast colon text = text := by
  obtain ⟨rest, hrest⟩ := List.takeWhile_prefix (l := text.reverse) (fun u => decide (u ≠ colon))
  have htext : text = rest.reverse ++ afterLast colon text := by
    have h := congrArg List.reverse hrest
    rw [List.reverse_append, List.reverse_reverse] at h
    exact h.symm
  generalize afterLast colon text = tail at htext
  rw [htext]
  simp

lemma dottedTail_eq_none {text : JsString} (h : dot ∉ text) : dottedTail text = none := by
  have htail : dot ∉ afterLast colon text := by
    intro hmem
    refine h ?_
    rw [← append_afterLast text]
    exact List.mem_append_right _ hmem
  simp only [dottedTail, List.splitOn_eq_singleton htail]
  split_ifs <;> rfl

/-- A dotted tail is a suffix of digits and dots. -/
lemma dottedTail_suffix {text head : JsString} {octets : ℕ × ℕ × ℕ × ℕ}
    (h : dottedTail text = some (head, octets)) :
    ∃ tail, text = head ++ tail ∧ percent ∉ tail := by
  simp only [dottedTail] at h
  split_ifs at h
  split at h
  · rename_i p q r s hsplit
    simp only [Option.bind_eq_bind, Option.bind_eq_some_iff, Option.some.injEq,
      Prod.mk.injEq] at h
    obtain ⟨a, ha, b, hb, c, hc, d, hd, rfl, -⟩ := h
    refine ⟨afterLast colon text, (append_afterLast text).symm, fun hmem => ?_⟩
    rcases dotted_units hsplit ha hb hc hd percent hmem with hdot | ⟨e, -, he⟩
    · exact absurd hdot (by decide)
    · rw [digitValue_separators.2.2] at he
      cases he
  · cases h

/-- An IPv4 text after a colon is a dotted tail. -/
lemma dottedTail_ipv4 {x last : JsString} {value : ℕ} (h : ipv4Value last = some value)
    (hx : x.any isLineTerminator = false) :
    ∃ a b c d, dottedTail (x ++ colon :: last) = some (x ++ [colon], a, b, c, d) ∧
      a ≤ 255 ∧ b ≤ 255 ∧ c ≤ 255 ∧ d ≤ 255 ∧ value = ((a * 256 + b) * 256 + c) * 256 + d := by
  obtain ⟨p, q, r, s, a, b, c, d, hsplit, ha, hb, hc, hd, hvalue⟩ := ipv4Value_eq_some h
  obtain ⟨-, hpa, hale⟩ := octet_eq_some ha
  obtain ⟨-, hqb, hble⟩ := octet_eq_some hb
  obtain ⟨-, hrc, hcle⟩ := octet_eq_some hc
  obtain ⟨-, hsd, hdle⟩ := octet_eq_some hd
  refine ⟨a, b, c, d, ?_, hale, hble, hcle, hdle, hvalue⟩
  have htake : (x ++ colon :: last).take ((x ++ colon :: last).length - last.length) =
      x ++ [colon] := by
    have hsplit' : x ++ colon :: last = (x ++ [colon]) ++ last := by simp
    rw [hsplit', List.length_append, Nat.add_sub_cancel, List.take_left]
  have hline : (x ++ [colon]).any isLineTerminator = false := by
    rw [List.any_append, hx]
    decide
  simp only [dottedTail, afterLast_append (piece_of_ipv4 h).colon, htake, hsplit, hpa, hqb, hrc,
    hsd]
  rw [if_pos ⟨by simp, by simp [hline]⟩]
  rfl

lemma bodyOf_eq_self {text : JsString} (h : percent ∉ text) : bodyOf text = text := by
  refine List.takeWhile_eq_self_iff.mpr fun u hu => ?_
  have hne : u ≠ percent := fun heq => h (heq ▸ hu)
  simpa using hne

/-- An IPv4 tail is folded into two groups. -/
lemma expandIpv6_ipv4 {x last : JsString} {value : ℕ} (h : ipv4Value last = some value)
    (hx : x.any isLineTerminator = false) (hpercent : percent ∉ x) :
    expandIpv6 (x ++ colon :: last) = expandGroups
      (x ++ colon :: (toHex (value / 65536) ++ colon :: toHex (value % 65536))) := by
  obtain ⟨a, b, c, d, hdotted, ha, hb, hc, hd, rfl⟩ := dottedTail_ipv4 h hx
  have hhigh : a <<< 8 ||| b = (((a * 256 + b) * 256 + c) * 256 + d) / 65536 := by
    rw [← Nat.shiftLeft_add_eq_or_of_lt (by omega), Nat.shiftLeft_eq]
    omega
  have hlow : c <<< 8 ||| d = (((a * 256 + b) * 256 + c) * 256 + d) % 65536 := by
    rw [← Nat.shiftLeft_add_eq_or_of_lt (by omega), Nat.shiftLeft_eq]
    omega
  have hne : ∀ n, percent ∉ toHex n := fun n => (piece_of_digits (digits_toHex n)).percent
  have hbody : percent ∉ x ++ [colon] ++ toHex (a <<< 8 ||| b) ++
      colon :: toHex (c <<< 8 ||| d) := by
    simp only [List.mem_append, List.mem_cons, List.not_mem_nil, or_false, not_or]
    exact ⟨⟨⟨hpercent, by decide⟩, hne _⟩, by decide, hne _⟩
  unfold expandIpv6
  simp only [hdotted]
  rw [if_neg (by omega), bodyOf_eq_self hbody, hhigh, hlow]
  simp

lemma bodyOf_append {s : JsString} (h : percent ∈ s) (rest : JsString) :
    bodyOf (s ++ rest) = bodyOf s := by
  induction s with
  | nil => cases h
  | cons u s ih =>
    by_cases hu : u = percent
    · simp [bodyOf, hu]
    · have hs : percent ∈ s := (List.mem_cons.mp h).resolve_left fun heq => hu heq.symm
      simpa [bodyOf, hu] using ih hs

lemma bodyOf_zone {body zone : JsString} (hbody : percent ∉ body)
    (hzone : zone.head? = some percent) : bodyOf (body ++ zone) = body := by
  obtain ⟨u, name, rfl⟩ := List.exists_cons_of_ne_nil (l := zone) (by rintro rfl; cases hzone)
  obtain rfl : u = percent := by simpa using hzone
  unfold bodyOf
  rw [List.takeWhile_append_of_pos]
  · simp
  · intro u hu
    have hne : u ≠ percent := fun heq => hbody (heq ▸ hu)
    simpa using hne

/-- Behind a zone the text expands as without it, unless its end is taken for a wrong IPv4. -/
lemma expandIpv6_zone {body zone : JsString} (hbody : percent ∉ body)
    (hzone : zone.head? = some percent) :
    expandIpv6 (body ++ zone) = .ok none ∨ expandIpv6 (body ++ zone) = expandGroups body := by
  have hfront := bodyOf_zone hbody hzone
  unfold expandIpv6
  cases hdotted : dottedTail (body ++ zone) with
  | none => exact .inr (by rw [hfront])
  | some found =>
    obtain ⟨head, a, b, c, d⟩ := found
    simp only
    split_ifs with hoctets
    · exact .inl rfl
    · right
      obtain ⟨tail, hsplit, htail⟩ := dottedTail_suffix hdotted
      have hpercent : percent ∈ head := by
        have hmem : percent ∈ head ++ tail := by
          rw [← hsplit]
          exact List.mem_append_right body (List.mem_of_mem_head? hzone)
        exact (List.mem_append.mp hmem).resolve_right htail
      rw [hsplit, bodyOf_append hpercent] at hfront
      rw [List.append_assoc, bodyOf_append hpercent, hfront]

end DottedTails

end Appspine.DestinationPolicy
