import Appspine.JsNumerals

/-!
# Texts of addresses

The texts that `isIP` of the platform takes for an IPv4 or an IPv6 address, with the address that
each of them denotes: four decimal octets, or eight groups, some of which `::` may stand for, the
last two also as four octets, with a zone after `%`.
-/
namespace Appspine.IpText
open JsText

section Grammar

inductive Address where
  | v4 (value : ℕ)
  | v6 (groups : List ℕ)
  deriving DecidableEq

def dot : CodeUnit := unit '.'

def colon : CodeUnit := unit ':'

def percent : CodeUnit := unit '%'

/-- One to four hexadecimal digits. -/
def hexGroup (piece : JsString) : Option ℕ := if piece.length ≤ 4 then digits 16 piece else none

/-- A decimal number up to 255 without leading zeros. -/
def octet (piece : JsString) : Option ℕ :=
  if piece.length ≤ 3 ∧ (piece.head? = some (unit '0') → piece.length = 1) then
    (digits 10 piece).filter fun n => decide (n ≤ 255)
  else none

def ipv4Value (text : JsString) : Option ℕ :=
  match text.splitOn dot with
  | [p, q, r, s] => do
    let a ← octet p
    let b ← octet q
    let c ← octet r
    let d ← octet s
    some (((a * 256 + b) * 256 + c) * 256 + d)
  | _ => none

/-- Groups of which the last two may stand as four octets. -/
def piecesGroups : List JsString → Option (List ℕ)
  | [] => some []
  | [last] =>
    match hexGroup last with
    | some group => some [group]
    | none => (ipv4Value last).map fun value => [value / 65536, value % 65536]
  | piece :: rest => do
    let group ← hexGroup piece
    let groups ← piecesGroups rest
    some (group :: groups)

/-- What stands on one side of `::`. -/
def piecesOf (side : JsString) : List JsString := if side = [] then [] else side.splitOn colon

/-- The eight groups of an IPv6 text without zone. `::` stands for one group or more. -/
def ipv6Groups (body : JsString) : Option (List ℕ) :=
  match breakOn (js "::") body with
  | (left, none) => (piecesGroups (left.splitOn colon)).filter fun groups =>
      decide (groups.length = 8)
  | (left, some right) => do
    let head ← (piecesOf left).mapM hexGroup
    let tail ← piecesGroups (piecesOf right)
    if head.length + tail.length ≤ 7 then
      some (head ++ List.replicate (8 - (head.length + tail.length)) 0 ++ tail)
    else none

/-- `[0-9a-zA-Z-.:]`. -/
def isZoneUnit (u : CodeUnit) : Bool :=
  (digitValue u).isSome || decide (u ∈ [unit '-', dot, colon])

def isZone : JsString → Bool
  | [] => true
  | _ :: name => decide (name ≠ []) && name.all isZoneUnit

/-- The text up to the zone. -/
def bodyOf (text : JsString) : JsString := text.takeWhile fun u => decide (u ≠ percent)

def zoneOf (text : JsString) : JsString := text.dropWhile fun u => decide (u ≠ percent)

def addressOf (text : JsString) : Option Address :=
  match ipv4Value text with
  | some value => some (.v4 value)
  | none => if isZone (zoneOf text) then (ipv6Groups (bodyOf text)).map .v6 else none

/-- `isIP` of `node:net`. -/
def isIP (text : JsString) : ℕ :=
  match addressOf text with
  | none => 0
  | some (.v4 _) => 4
  | some (.v6 _) => 6

example : ["10.0.0.1", "010.0.0.1", "::1", "FE80::1%eth0", "1::ffff:1.2.3.4", "1:::2", "::1%",
    "1:2:3:4:5:6:7::", "1:2:3:4:5:6:7:8::"].map (fun s => isIP (js s)) =
    [4, 0, 6, 6, 6, 0, 0, 6, 0] := by decide +kernel

end Grammar

section Pieces

lemma readDigits_units {base acc n : ℕ} {s : JsString} (h : readDigits base acc s = some n) :
    ∀ u ∈ s, ∃ d < base, digitValue u = some d := by
  induction s generalizing acc with
  | nil => exact fun u hu => absurd hu List.not_mem_nil
  | cons v s ih =>
    simp only [readDigits, Option.bind_eq_bind, Option.bind_eq_some_iff] at h
    obtain ⟨d, hd, h⟩ := h
    split_ifs at h with hlt
    intro u hu
    rcases List.mem_cons.mp hu with rfl | hrest
    · exact ⟨d, hlt, hd⟩
    · exact ih h u hrest

lemma readDigits_lt {base acc n : ℕ} {s : JsString} (h : readDigits base acc s = some n) :
    n < (acc + 1) * base ^ s.length := by
  induction s generalizing acc with
  | nil =>
    obtain rfl := Option.some.inj h
    simp
  | cons v s ih =>
    simp only [readDigits, Option.bind_eq_bind, Option.bind_eq_some_iff] at h
    obtain ⟨d, -, h⟩ := h
    split_ifs at h with hlt
    calc n < (acc * base + d + 1) * base ^ s.length := ih h
      _ ≤ ((acc + 1) * base) * base ^ s.length := by
        refine Nat.mul_le_mul_right _ ?_
        rw [Nat.add_mul]
        omega
      _ = (acc + 1) * base ^ (v :: s).length := by
        rw [List.length_cons, pow_succ]
        ring

lemma digits_eq_some {base n : ℕ} {s : JsString} :
    digits base s = some n ↔ s ≠ [] ∧ readDigits base 0 s = some n := by
  unfold digits
  split_ifs with h
  · simp [h]
  · simp [h]

lemma digits_lt {base n : ℕ} {s : JsString} (h : digits base s = some n) :
    n < base ^ s.length := by
  simpa using readDigits_lt (digits_eq_some.mp h).2

lemma hexGroup_eq_some {piece : JsString} {n : ℕ} :
    hexGroup piece = some n ↔ piece.length ≤ 4 ∧ digits 16 piece = some n := by
  unfold hexGroup
  split_ifs with h
  · simp [h]
  · simp [h]

lemma hexGroup_lt {piece : JsString} {n : ℕ} (h : hexGroup piece = some n) : n < 65536 := by
  obtain ⟨hlength, hdigits⟩ := hexGroup_eq_some.mp h
  calc n < 16 ^ piece.length := digits_lt hdigits
    _ ≤ 16 ^ 4 := Nat.pow_le_pow_right (by norm_num) hlength

lemma octet_eq_some {piece : JsString} {n : ℕ} (h : octet piece = some n) :
    piece.length ≤ 3 ∧ digits 10 piece = some n ∧ n ≤ 255 := by
  unfold octet at h
  split_ifs at h with hshape
  obtain ⟨hdigits, hle⟩ := Option.filter_eq_some_iff.mp h
  exact ⟨hshape.1, hdigits, of_decide_eq_true hle⟩

end Pieces

section Separators

lemma digitValue_separators : digitValue dot = none ∧ digitValue colon = none ∧
    digitValue percent = none := by decide

/-- A text of digits contains nothing that is no digit. -/
lemma notMem_of_digits {base n : ℕ} {s : JsString} {u : CodeUnit} (h : digits base s = some n)
    (hu : digitValue u = none) : u ∉ s := by
  intro hmem
  obtain ⟨d, -, hd⟩ := readDigits_units (digits_eq_some.mp h).2 u hmem
  rw [hu] at hd
  cases hd

/-- What may stand between two colons: not empty, and without colon or zone. -/
structure Piece (piece : JsString) : Prop where
  ne_nil : piece ≠ []
  colon : colon ∉ piece
  percent : percent ∉ piece

lemma piece_of_digits {base n : ℕ} {s : JsString} (h : digits base s = some n) : Piece s where
  ne_nil := (digits_eq_some.mp h).1
  colon := notMem_of_digits h digitValue_separators.2.1
  percent := notMem_of_digits h digitValue_separators.2.2

lemma piece_of_hexGroup {piece : JsString} {n : ℕ} (h : hexGroup piece = some n) : Piece piece :=
  piece_of_digits (hexGroup_eq_some.mp h).2

/-- An IPv4 text: four decimal numbers between dots, and its value. -/
lemma ipv4Value_eq_some {text : JsString} {value : ℕ} (h : ipv4Value text = some value) :
    ∃ p q r s a b c d, text.splitOn dot = [p, q, r, s] ∧
      octet p = some a ∧ octet q = some b ∧ octet r = some c ∧ octet s = some d ∧
      value = ((a * 256 + b) * 256 + c) * 256 + d := by
  unfold ipv4Value at h
  split at h
  · rename_i p q r s hsplit
    simp only [Option.bind_eq_bind, Option.bind_eq_some_iff, Option.some.injEq] at h
    obtain ⟨a, ha, b, hb, c, hc, d, hd, hvalue⟩ := h
    exact ⟨p, q, r, s, a, b, c, d, hsplit, ha, hb, hc, hd, hvalue.symm⟩
  · cases h

lemma ipv4Value_lt {text : JsString} {value : ℕ} (h : ipv4Value text = some value) :
    value < 4294967296 := by
  obtain ⟨p, q, r, s, a, b, c, d, -, ha, hb, hc, hd, rfl⟩ := ipv4Value_eq_some h
  have ha := (octet_eq_some ha).2.2
  have hb := (octet_eq_some hb).2.2
  have hc := (octet_eq_some hc).2.2
  have hd := (octet_eq_some hd).2.2
  omega

/-- The units of four decimal numbers between dots. -/
lemma dotted_units {text p q r s : JsString} {a b c d : ℕ} (hsplit : text.splitOn dot = [p, q, r, s])
    (ha : digits 10 p = some a) (hb : digits 10 q = some b) (hc : digits 10 r = some c)
    (hd : digits 10 s = some d) : ∀ u ∈ text, u = dot ∨ ∃ d < 10, digitValue u = some d := by
  have htext : text = p ++ dot :: (q ++ dot :: (r ++ dot :: s)) := by
    have hjoin := @List.intercalate_splitOn _ text _ _ dot
    rw [hsplit] at hjoin
    simpa [List.intercalate] using hjoin.symm
  have hunits : ∀ {piece n}, digits 10 piece = some n → ∀ u ∈ piece, u = dot ∨
      ∃ d < 10, digitValue u = some d := by
    intro piece n hpiece u hu
    exact .inr (readDigits_units (digits_eq_some.mp hpiece).2 u hu)
  intro u hu
  rw [htext] at hu
  simp only [List.mem_append, List.mem_cons] at hu
  rcases hu with hu | rfl | hu | rfl | hu | rfl | hu
  · exact hunits ha u hu
  · exact .inl rfl
  · exact hunits hb u hu
  · exact .inl rfl
  · exact hunits hc u hu
  · exact .inl rfl
  · exact hunits hd u hu

/-- The units of an IPv4 text are decimal digits and dots. -/
lemma ipv4_units {text : JsString} {value : ℕ} (h : ipv4Value text = some value) :
    ∀ u ∈ text, u = dot ∨ ∃ d < 10, digitValue u = some d := by
  obtain ⟨p, q, r, s, a, b, c, d, hsplit, ha, hb, hc, hd, -⟩ := ipv4Value_eq_some h
  exact dotted_units hsplit (octet_eq_some ha).2.1 (octet_eq_some hb).2.1 (octet_eq_some hc).2.1
    (octet_eq_some hd).2.1

lemma piece_of_ipv4 {text : JsString} {value : ℕ} (h : ipv4Value text = some value) :
    Piece text := by
  have hnot : ∀ u, u ≠ dot → digitValue u = none → u ∉ text := by
    intro u hdot hdigit hmem
    rcases ipv4_units h u hmem with hu | ⟨d, -, hd⟩
    · exact hdot hu
    · rw [hdigit] at hd
      cases hd
  refine ⟨?_, hnot colon (by decide) digitValue_separators.2.1,
    hnot percent (by decide) digitValue_separators.2.2⟩
  rintro rfl
  obtain ⟨p, q, r, s, a, b, c, d, hsplit, -⟩ := ipv4Value_eq_some h
  simp at hsplit

end Separators

section Shape

lemma piecesGroups_cons {piece : JsString} {rest : List JsString} (h : rest ≠ []) :
    piecesGroups (piece :: rest) =
      (hexGroup piece).bind fun group => (piecesGroups rest).map (group :: ·) := by
  cases rest with
  | nil => exact absurd rfl h
  | cons next rest =>
    rw [piecesGroups]
    · cases hexGroup piece with
      | none => rfl
      | some group => cases piecesGroups (next :: rest) <;> rfl
    · simp

/-- The pieces are groups, or groups and then an IPv4 text in the place of two. -/
lemma piecesGroups_cases {ps : List JsString} {groups : List ℕ}
    (h : piecesGroups ps = some groups) :
    List.Forall₂ (fun piece n => hexGroup piece = some n) ps groups ∨
      ∃ hs last head value, ps = hs ++ [last] ∧
        List.Forall₂ (fun piece n => hexGroup piece = some n) hs head ∧
        ipv4Value last = some value ∧ groups = head ++ [value / 65536, value % 65536] := by
  induction ps using piecesGroups.induct generalizing groups with
  | case1 =>
    obtain rfl := Option.some.inj h
    exact .inl .nil
  | case2 last group hgroup =>
    simp only [piecesGroups, hgroup] at h
    obtain rfl := Option.some.inj h
    exact .inl (.cons hgroup .nil)
  | case3 last hgroup =>
    simp only [piecesGroups, hgroup, Option.map_eq_some_iff] at h
    obtain ⟨value, hvalue, rfl⟩ := h
    exact .inr ⟨[], last, [], value, rfl, .nil, hvalue, rfl⟩
  | case4 piece rest hrest ih =>
    rw [piecesGroups_cons hrest] at h
    simp only [Option.bind_eq_some_iff, Option.map_eq_some_iff] at h
    obtain ⟨group, hgroup, later, hlater, rfl⟩ := h
    rcases ih hlater with hall | ⟨hs, last, head, value, rfl, hhead, hvalue, rfl⟩
    · exact .inl (.cons hgroup hall)
    · exact .inr ⟨piece :: hs, last, group :: head, value, rfl, .cons hgroup hhead, hvalue, rfl⟩

lemma breakOn_eq {sep s a : JsString} {b : Option JsString} (h : breakOn sep s = (a, b)) :
    s = a ++ b.elim [] (sep ++ ·) := by
  induction s generalizing a b with
  | nil =>
    unfold breakOn at h
    split_ifs at h with hsep
    · obtain ⟨rfl, rfl⟩ := Prod.mk.inj h
      simp [hsep]
    · obtain ⟨rfl, rfl⟩ := Prod.mk.inj h
      rfl
  | cons u us ih =>
    unfold breakOn at h
    split_ifs at h with hsep
    · obtain ⟨rfl, rfl⟩ := Prod.mk.inj h
      obtain ⟨rest, hrest⟩ := List.isPrefixOf_iff_prefix.mp hsep
      simp [← hrest]
    · obtain ⟨rfl, rfl⟩ := Prod.mk.inj h
      exact congrArg (u :: ·) (ih rfl)

lemma forall₂_of_mapM {α β : Type} {f : α → Option β} {xs : List α} {ys : List β}
    (h : xs.mapM f = some ys) : List.Forall₂ (fun x y => f x = some y) xs ys := by
  induction xs generalizing ys with
  | nil =>
    obtain rfl := Option.some.inj h
    exact .nil
  | cons x xs ih =>
    simp only [List.mapM_cons, Option.bind_eq_bind, Option.bind_eq_some_iff] at h
    obtain ⟨y, hy, ys', hys, h⟩ := h
    obtain rfl := Option.some.inj h
    exact .cons hy (ih hys)

lemma join_piecesOf (side : JsString) : join [colon] (piecesOf side) = side := by
  unfold piecesOf
  split_ifs with h
  · rw [h]
    rfl
  · exact List.intercalate_splitOn colon

/-- The two forms of an IPv6 text: eight groups, or groups around `::`. -/
lemma ipv6Groups_cases {body : JsString} {groups : List ℕ} (h : ipv6Groups body = some groups) :
    (∃ ps, ps ≠ [] ∧ body = join [colon] ps ∧ piecesGroups ps = some groups ∧
      groups.length = 8) ∨
    ∃ ls rs head tail, body = join [colon] ls ++ js "::" ++ join [colon] rs ∧
      List.Forall₂ (fun piece n => hexGroup piece = some n) ls head ∧
      piecesGroups rs = some tail ∧ head.length + tail.length ≤ 7 ∧
      groups = head ++ List.replicate (8 - (head.length + tail.length)) 0 ++ tail := by
  unfold ipv6Groups at h
  split at h
  · rename_i left hbreak
    obtain ⟨hpieces, hlength⟩ := Option.filter_eq_some_iff.mp h
    have hbody : body = left := by simpa using breakOn_eq hbreak
    refine .inl ⟨left.splitOn colon, List.splitOn_ne_nil colon left, ?_, hpieces,
      of_decide_eq_true hlength⟩
    rw [hbody]
    exact (List.intercalate_splitOn colon).symm
  · rename_i left right hbreak
    simp only [Option.bind_eq_bind, Option.bind_eq_some_iff] at h
    obtain ⟨head, hhead, tail, htail, h⟩ := h
    split_ifs at h with hlength
    obtain rfl := Option.some.inj h
    refine .inr ⟨piecesOf left, piecesOf right, head, tail, ?_, forall₂_of_mapM hhead, htail,
      hlength, rfl⟩
    rw [join_piecesOf, join_piecesOf]
    simpa using breakOn_eq hbreak

end Shape

section LowerCase

/-- An upper-case letter, by its place in the alphabet. -/
lemma upper_cases {u : CodeUnit} (h : unit 'A' ≤ u ∧ u ≤ unit 'Z') :
    ∃ k < 26, u = Fin.ofNat 65536 (65 + k) := by
  have hA : (unit 'A').val ≤ u.val := h.1
  have hZ : u.val ≤ (unit 'Z').val := h.2
  have hvalA : (unit 'A').val = 65 := by decide
  have hvalZ : (unit 'Z').val = 90 := by decide
  refine ⟨u.val - 65, by omega, Fin.ext ?_⟩
  simp only [Fin.ofNat]
  omega

lemma digitValue_asciiLowerUnit (u : CodeUnit) : digitValue (asciiLowerUnit u) = digitValue u := by
  unfold asciiLowerUnit
  split_ifs with h
  · obtain ⟨k, hk, rfl⟩ := upper_cases h
    have hall : ∀ k < 26, digitValue (Fin.ofNat 65536 (65 + k) + 32) =
        digitValue (Fin.ofNat 65536 (65 + k)) := by decide
    exact hall k hk
  · rfl

/-- Lower case makes nothing a unit that is no letter. -/
lemma asciiLowerUnit_eq_iff {v : CodeUnit} (hv : v.val < 65 ∨ 90 < v.val ∧ v.val < 97)
    (u : CodeUnit) :
    asciiLowerUnit u = v ↔ u = v := by
  unfold asciiLowerUnit
  split_ifs with h
  · obtain ⟨k, hk, rfl⟩ := upper_cases h
    have hupper : (Fin.ofNat 65536 (65 + k)).val = 65 + k := by
      simp only [Fin.ofNat]
      omega
    have hlower : (Fin.ofNat 65536 (65 + k) + 32).val = 97 + k := by
      have h32 : ((32 : CodeUnit)).val = 32 := by decide
      rw [Fin.val_add, hupper, h32]
      omega
    constructor
    · rintro rfl
      omega
    · rintro rfl
      omega
  · rfl

lemma splitOn_asciiLower {sep : CodeUnit} (hsep : sep.val < 65) (s : JsString) :
    (asciiLower s).splitOn sep = (s.splitOn sep).map asciiLower := by
  induction s with
  | nil => rfl
  | cons u s ih =>
    have hu : (asciiLowerUnit u == sep) = (u == sep) := by
      rw [Bool.eq_iff_iff, beq_iff_eq, beq_iff_eq]
      exact asciiLowerUnit_eq_iff (.inl hsep) u
    have hcons : asciiLower (u :: s) = asciiLowerUnit u :: asciiLower s := rfl
    rw [hcons, List.splitOn_cons_eq_if_modifyHead, List.splitOn_cons_eq_if_modifyHead, ih, hu]
    obtain ⟨first, rest, hsplit⟩ := List.exists_cons_of_ne_nil (List.splitOn_ne_nil sep s)
    rw [hsplit]
    split_ifs <;> rfl

lemma readDigits_asciiLower (base acc : ℕ) (s : JsString) :
    readDigits base acc (asciiLower s) = readDigits base acc s := by
  induction s generalizing acc with
  | nil => rfl
  | cons u s ih =>
    simp only [asciiLower, List.map_cons, readDigits, digitValue_asciiLowerUnit] at ih ⊢
    simp only [ih]

lemma digits_asciiLower (base : ℕ) (s : JsString) : digits base (asciiLower s) = digits base s := by
  unfold digits
  rw [readDigits_asciiLower]
  simp [asciiLower]

lemma hexGroup_asciiLower (piece : JsString) : hexGroup (asciiLower piece) = hexGroup piece := by
  unfold hexGroup
  rw [digits_asciiLower]
  simp [asciiLower]

lemma octet_asciiLower (piece : JsString) : octet (asciiLower piece) = octet piece := by
  have hhead : (asciiLower piece).head? = some (unit '0') ↔ piece.head? = some (unit '0') := by
    cases piece with
    | nil => rfl
    | cons u us => simp [asciiLower, asciiLowerUnit_eq_iff (v := unit '0') (by decide)]
  have hlength : (asciiLower piece).length = piece.length := by simp [asciiLower]
  unfold octet
  simp only [digits_asciiLower, hhead, hlength]

lemma ipv4Value_asciiLower (text : JsString) : ipv4Value (asciiLower text) = ipv4Value text := by
  unfold ipv4Value
  rw [splitOn_asciiLower (by decide)]
  rcases text.splitOn dot with _ | ⟨p, _ | ⟨q, _ | ⟨r, _ | ⟨s, _ | ⟨_, _⟩⟩⟩⟩⟩
  case cons.cons.cons.cons.nil => simp only [List.map_cons, List.map_nil, octet_asciiLower]
  all_goals rfl

lemma piecesGroups_asciiLower (ps : List JsString) :
    piecesGroups (ps.map asciiLower) = piecesGroups ps := by
  induction ps using piecesGroups.induct with
  | case1 => rfl
  | case2 last group hgroup => simp [piecesGroups, hexGroup_asciiLower, hgroup]
  | case3 last hgroup => simp [piecesGroups, hexGroup_asciiLower, ipv4Value_asciiLower, hgroup]
  | case4 piece rest hrest ih =>
    rw [List.map_cons, piecesGroups_cons (by simpa using hrest), piecesGroups_cons hrest, ih,
      hexGroup_asciiLower]

lemma mapM_hexGroup_asciiLower (ps : List JsString) :
    (ps.map asciiLower).mapM hexGroup = ps.mapM hexGroup := by
  induction ps with
  | nil => rfl
  | cons piece ps ih => simp only [List.map_cons, List.mapM_cons, hexGroup_asciiLower, ih]

lemma piecesOf_asciiLower (side : JsString) :
    piecesOf (asciiLower side) = (piecesOf side).map asciiLower := by
  unfold piecesOf
  rw [splitOn_asciiLower (by decide)]
  simp only [asciiLower, List.map_eq_nil_iff]
  split_ifs <;> rfl

lemma isPrefixOf_asciiLower (s : JsString) :
    (js "::").isPrefixOf (asciiLower s) = (js "::").isPrefixOf s := by
  have hunit : ∀ u : CodeUnit, (colon == asciiLowerUnit u) = (colon == u) := by
    intro u
    rw [Bool.eq_iff_iff, beq_iff_eq, beq_iff_eq, eq_comm, asciiLowerUnit_eq_iff (by decide),
      eq_comm]
  have hjs : js "::" = [colon, colon] := by decide
  rw [hjs]
  rcases s with _ | ⟨u, _ | ⟨v, s⟩⟩
  · rfl
  · simp [asciiLower, List.isPrefixOf]
  · simp [asciiLower, List.isPrefixOf, hunit]

lemma breakOn_asciiLower (s : JsString) :
    breakOn (js "::") (asciiLower s) =
      (asciiLower (breakOn (js "::") s).1, (breakOn (js "::") s).2.map asciiLower) := by
  induction s with
  | nil => rfl
  | cons u s ih =>
    have hprefix := isPrefixOf_asciiLower (u :: s)
    have hcons : asciiLower (u :: s) = asciiLowerUnit u :: asciiLower s := rfl
    rw [hcons] at hprefix ⊢
    simp only [breakOn, hprefix, ih]
    split_ifs
    · simp [asciiLower, List.map_drop]
    · rfl

lemma ipv6Groups_asciiLower (body : JsString) : ipv6Groups (asciiLower body) = ipv6Groups body := by
  unfold ipv6Groups
  rw [breakOn_asciiLower]
  rcases breakOn (js "::") body with ⟨left, _ | right⟩
  · simp only [Option.map_none, splitOn_asciiLower (show colon.val < 65 by decide),
      piecesGroups_asciiLower]
  · simp only [Option.map_some, piecesOf_asciiLower, piecesGroups_asciiLower,
      mapM_hexGroup_asciiLower]

lemma isZone_asciiLower (zone : JsString) : isZone (asciiLower zone) = isZone zone := by
  have hunit : ∀ u, isZoneUnit (asciiLowerUnit u) = isZoneUnit u := by
    intro u
    unfold isZoneUnit
    rw [digitValue_asciiLowerUnit]
    simp [asciiLowerUnit_eq_iff (v := unit '-') (by decide),
      asciiLowerUnit_eq_iff (v := dot) (by decide), asciiLowerUnit_eq_iff (v := colon) (by decide)]
  cases zone with
  | nil => rfl
  | cons u name => simp [asciiLower, isZone, List.all_map, Function.comp_def, hunit]

/-- Upper and lower case denote the same address. -/
theorem addressOf_asciiLower (text : JsString) : addressOf (asciiLower text) = addressOf text := by
  have hpercent : (fun u => decide (u ≠ percent)) ∘ asciiLowerUnit =
      fun u => decide (u ≠ percent) := by
    funext u
    simp [asciiLowerUnit_eq_iff (v := percent) (by decide)]
  have hbody : bodyOf (asciiLower text) = asciiLower (bodyOf text) := by
    unfold bodyOf asciiLower
    rw [List.takeWhile_map, hpercent]
  have hzone : zoneOf (asciiLower text) = asciiLower (zoneOf text) := by
    unfold zoneOf asciiLower
    rw [List.dropWhile_map, hpercent]
  unfold addressOf
  rw [ipv4Value_asciiLower, hbody, hzone, ipv6Groups_asciiLower, isZone_asciiLower]

end LowerCase

end Appspine.IpText
