import Appspine.InsertionMap
import Appspine.Utf16

/-!
# JSON values and their text

A value as `JSON.parse` builds it and as `JSON.stringify` prints it. Numbers are
a parameter: the finite numbers of the language with the decimal text each of
them has. Members of an object stand in enumeration order.
-/
namespace Appspine.JsonText
open JsText Utf16 StableSort InsertionMap

inductive Json (N : Type) where
  | null
  | bool (b : Bool)
  | num (n : N)
  | str (s : JsString)
  | arr (items : List (Json N))
  | obj (members : List (JsString × Json N))

/-- Characters of a number token. -/
def isNumberUnit (u : CodeUnit) : Bool :=
  decide ((48 ≤ u.val ∧ u.val ≤ 57) ∨ u ∈ [unit '+', unit '-', unit '.', unit 'e', unit 'E'])

/-- Finite numbers (`-0` and `0` not distinguished) with their shortest decimal text,
which reads back as the same number. -/
class JsonNumber (N : Type) where
  text : N → JsString
  ofText : JsString → Option N
  text_ne_nil : ∀ n, text n ≠ []
  text_units : ∀ n, ∀ u ∈ text n, isNumberUnit u = true
  ofText_text : ∀ n, ofText (text n) = some n

variable {N : Type}

namespace Json

/-- Induction over values, items and members at once. -/
@[induction_eliminator]
theorem induct {P : Json N → Prop} (null : P .null) (bool : ∀ b, P (.bool b))
    (num : ∀ n, P (.num n)) (str : ∀ s, P (.str s))
    (arr : ∀ items, (∀ j ∈ items, P j) → P (.arr items))
    (obj : ∀ members, (∀ m ∈ members, P m.2) → P (.obj members)) (j : Json N) : P j := by
  refine @Json.rec N P (fun items => ∀ j ∈ items, P j) (fun members => ∀ m ∈ members, P m.2)
    (fun m => P m.2) null bool num str arr obj ?_ ?_ ?_ ?_ ?_ j
  · simp
  · intro j items hj hitems
    simpa using And.intro hj hitems
  · simp
  · intro m members hm hmembers
    simpa using And.intro hm hmembers
  · intro k v hv
    exact hv

end Json

def hexDigit (n : ℕ) : CodeUnit := Fin.ofNat 65536 (if n < 10 then 48 + n else 87 + n)

/-- Four lower-case hexadecimal digits. -/
def hex4 (u : CodeUnit) : JsString :=
  [hexDigit (u.val / 4096), hexDigit (u.val / 256 % 16), hexDigit (u.val / 16 % 16),
    hexDigit (u.val % 16)]

/-- One code unit inside a string token; a surrogate here is a lone one. -/
def quoteUnit (u : CodeUnit) : JsString :=
  if u = unit '"' then js "\\\""
  else if u = unit '\\' then js "\\\\"
  else if u.val = 8 then js "\\b"
  else if u.val = 9 then js "\\t"
  else if u.val = 10 then js "\\n"
  else if u.val = 12 then js "\\f"
  else if u.val = 13 then js "\\r"
  else if u.val < 0x20 ∨ isSurrogate u then js "\\u" ++ hex4 u
  else [u]

def quoteUnits : JsString → JsString
  | [] => []
  | [u] => quoteUnit u
  | u :: v :: us =>
    if isHigh u && isLow v then u :: v :: quoteUnits us else quoteUnit u ++ quoteUnits (v :: us)

/-- `JSON.stringify` of a string. -/
def quote (s : JsString) : JsString := unit '"' :: (quoteUnits s ++ [unit '"'])

def member (key text : JsString) : JsString := quote key ++ unit ':' :: text

def brackets (texts : List JsString) : JsString := unit '[' :: (join [unit ','] texts ++ [unit ']'])

def braces (texts : List JsString) : JsString := unit '{' :: (join [unit ','] texts ++ [unit '}'])

section Stringify

variable [JsonNumber N]

mutual

/-- `JSON.stringify`, without a space argument. -/
def stringify : Json N → JsString
  | .null => js "null"
  | .bool b => if b then js "true" else js "false"
  | .num n => JsonNumber.text n
  | .str s => quote s
  | .arr items => brackets (stringifyItems items)
  | .obj members => braces (stringifyMembers members)

def stringifyItems : List (Json N) → List JsString
  | [] => []
  | j :: items => stringify j :: stringifyItems items

def stringifyMembers : List (JsString × Json N) → List JsString
  | [] => []
  | (k, v) :: members => member k (stringify v) :: stringifyMembers members

end

theorem stringifyItems_eq (items : List (Json N)) : stringifyItems items = items.map stringify := by
  induction items with
  | nil => rfl
  | cons j items ih => simp [stringifyItems, ih]

theorem stringifyMembers_eq (members : List (JsString × Json N)) :
    stringifyMembers members = members.map (fun m => member m.1 (stringify m.2)) := by
  induction members with
  | nil => rfl
  | cons m members ih => simp [stringifyMembers, ih]

end Stringify

section WellFormed

theorem isSurrogate_hexDigit (n : ℕ) (h : n < 16) : isSurrogate (hexDigit n) = false := by
  apply isSurrogate_of_lt
  simp only [hexDigit, Fin.ofNat]
  split_ifs <;> omega

theorem wellFormed_hex4 (u : CodeUnit) : wellFormed (hex4 u) = true := by
  apply wellFormed_of_no_surrogate
  intro v hv
  have hu := u.isLt
  simp only [hex4, List.mem_cons, List.not_mem_nil, or_false] at hv
  rcases hv with rfl | rfl | rfl | rfl <;> exact isSurrogate_hexDigit _ (by omega)

theorem wellFormed_quoteUnit (u : CodeUnit) : wellFormed (quoteUnit u) = true := by
  unfold quoteUnit
  split_ifs with h1 h2 h3 h4 h5 h6 h7 h8
  iterate 7 decide
  · exact wellFormed_append (by decide) (wellFormed_hex4 u)
  · simpa [wellFormed] using fun hs => h8 (Or.inr hs)

theorem wellFormed_quoteUnits (s : JsString) : wellFormed (quoteUnits s) = true := by
  induction s using quoteUnits.induct with
  | case1 => rfl
  | case2 u => exact wellFormed_quoteUnit u
  | case3 u v us hpair ih => simpa [quoteUnits, wellFormed, hpair] using ih
  | case4 u v us hpair ih =>
    simp only [quoteUnits, if_neg hpair]
    exact wellFormed_append (wellFormed_quoteUnit u) ih

/-- A quoted string has no lone surrogate, whatever the string. -/
theorem wellFormed_quote (s : JsString) : wellFormed (quote s) = true := by
  unfold quote
  rw [wellFormed_cons_of_not_surrogate (by decide)]
  exact wellFormed_append (wellFormed_quoteUnits s) (by decide)

theorem wellFormed_member {k t : JsString} (h : wellFormed t = true) :
    wellFormed (member k t) = true := by
  apply wellFormed_append (wellFormed_quote k)
  rwa [wellFormed_cons_of_not_surrogate (by decide)]

theorem wellFormed_brackets {texts : List JsString} (h : ∀ t ∈ texts, wellFormed t = true) :
    wellFormed (brackets texts) = true := by
  unfold brackets
  rw [wellFormed_cons_of_not_surrogate (by decide)]
  exact wellFormed_append (wellFormed_join (by decide) h) (by decide)

theorem wellFormed_braces {texts : List JsString} (h : ∀ t ∈ texts, wellFormed t = true) :
    wellFormed (braces texts) = true := by
  unfold braces
  rw [wellFormed_cons_of_not_surrogate (by decide)]
  exact wellFormed_append (wellFormed_join (by decide) h) (by decide)

theorem isSurrogate_of_isNumberUnit {u : CodeUnit} (h : isNumberUnit u = true) :
    isSurrogate u = false := by
  apply isSurrogate_of_lt
  simp only [isNumberUnit, decide_eq_true_eq, List.mem_cons, List.not_mem_nil, or_false] at h
  rcases h with ⟨_, h⟩ | rfl | rfl | rfl | rfl | rfl
  · omega
  all_goals decide

variable [JsonNumber N]

/-- JSON text never has a lone surrogate. -/
theorem wellFormed_stringify (j : Json N) : wellFormed (stringify j) = true := by
  induction j with
  | null => simp only [stringify]; decide
  | bool b => cases b <;> simp only [stringify] <;> decide
  | num n =>
    simp only [stringify]
    exact wellFormed_of_no_surrogate
      (fun u hu => isSurrogate_of_isNumberUnit (JsonNumber.text_units n u hu))
  | str s => exact wellFormed_quote s
  | arr items ih =>
    simp only [stringify, stringifyItems_eq]
    apply wellFormed_brackets
    intro t ht
    obtain ⟨j, hj, rfl⟩ := List.mem_map.mp ht
    exact ih j hj
  | obj members ih =>
    simp only [stringify, stringifyMembers_eq]
    apply wellFormed_braces
    intro t ht
    obtain ⟨m, hm, rfl⟩ := List.mem_map.mp ht
    exact wellFormed_member (ih m hm)

end WellFormed

end Appspine.JsonText
