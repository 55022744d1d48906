import Appspine.JsonText

/-!
# Parsing JSON

`JSON.parse`, with the objects it builds: a repeated key overwrites the value in
its first place, and array-index keys enumerate first. Parsing the text of a value
gives that value back with its objects rebuilt this way.
-/
namespace Appspine.JsonText
open JsText Utf16 StableSort InsertionMap

variable {N : Type}

section Objects

def isDigit (u : CodeUnit) : Bool := decide (48 ≤ u.val ∧ u.val ≤ 57)

def decimalValue (k : JsString) : ℕ := k.foldl (fun n u => 10 * n + (u.val - 48)) 0

/-- Array-index keys: canonical decimals below `2^32 - 1`. -/
def isArrayIndex (k : JsString) : Bool :=
  k ≠ [] && k.all isDigit && (k.head? ≠ some (unit '0') || k.length = 1) &&
    decide (decimalValue k < 4294967295)

variable {α : Type}

/-- Own keys in enumeration order: array indices ascending, then the others as created. -/
def enumerationOrder (members : List (JsString × α)) : List (JsString × α) :=
  sortBy (fun m => decimalValue m.1) (members.filter (fun m => isArrayIndex m.1)) ++
    members.filter (fun m => !isArrayIndex m.1)

/-- The own properties of an object after creating the entries one after another. -/
def ofEntries (entries : List (JsString × α)) : List (JsString × α) :=
  enumerationOrder (entries.foldl (fun members e => InsertionMap.set members e.1 e.2) [])

theorem enumerationOrder_perm (members : List (JsString × α)) :
    (enumerationOrder members).Perm members := by
  refine ((sortBy_perm _ _).append_right _).trans ?_
  simpa using List.filter_append_perm (fun m : JsString × α => isArrayIndex m.1) members

/-- With distinct keys, creating the entries only rearranges them. -/
theorem ofEntries_perm {entries : List (JsString × α)} (h : (entries.map Prod.fst).Nodup) :
    (ofEntries entries).Perm entries := by
  unfold ofEntries
  rw [foldl_set_of_nodup entries [] (by simpa using h)]
  exact enumerationOrder_perm _

mutual

/-- The value with every object built anew from its entries. -/
def rebuild : Json N → Json N
  | .null => .null
  | .bool b => .bool b
  | .num n => .num n
  | .str s => .str s
  | .arr items => .arr (rebuildItems items)
  | .obj members => .obj (ofEntries (rebuildMembers members))

def rebuildItems : List (Json N) → List (Json N)
  | [] => []
  | j :: items => rebuild j :: rebuildItems items

def rebuildMembers : List (JsString × Json N) → List (JsString × Json N)
  | [] => []
  | (k, v) :: members => (k, rebuild v) :: rebuildMembers members

end

theorem rebuildItems_eq (items : List (Json N)) : rebuildItems items = items.map rebuild := by
  induction items with
  | nil => rfl
  | cons j items ih => simp [rebuildItems, ih]

theorem rebuildMembers_eq (members : List (JsString × Json N)) :
    rebuildMembers members = members.map (fun m => (m.1, rebuild m.2)) := by
  induction members with
  | nil => rfl
  | cons m members ih => simp [rebuildMembers, ih]

end Objects

section Scanner

def isSpace (u : CodeUnit) : Bool := decide (u.val ∈ [0x20, 0x09, 0x0A, 0x0D])

def skipSpace (s : JsString) : JsString := s.dropWhile isSpace

def hexValue (u : CodeUnit) : Option ℕ :=
  if 48 ≤ u.val ∧ u.val ≤ 57 then some (u.val - 48)
  else if 97 ≤ u.val ∧ u.val ≤ 102 then some (u.val - 87)
  else if 65 ≤ u.val ∧ u.val ≤ 70 then some (u.val - 55)
  else none

def readHex4 (a b c d : CodeUnit) : Option CodeUnit := do
  let w ← hexValue a
  let x ← hexValue b
  let y ← hexValue c
  let z ← hexValue d
  return Fin.ofNat 65536 (((w * 16 + x) * 16 + y) * 16 + z)

/-- The code unit that a single-character escape stands for. -/
def simpleEscape (e : CodeUnit) : Option CodeUnit :=
  if e = unit '"' then some (unit '"')
  else if e = unit '\\' then some (unit '\\')
  else if e = unit '/' then some (unit '/')
  else if e = unit 'b' then some 8
  else if e = unit 'f' then some 12
  else if e = unit 'n' then some 10
  else if e = unit 'r' then some 13
  else if e = unit 't' then some 9
  else none

/-- The rest of a string token after its opening quote, and what follows it. -/
def scanString : JsString → Option (JsString × JsString)
  | [] => none
  | u :: us =>
    if u = unit '"' then some ([], us)
    else if u = unit '\\' then
      match us with
      | [] => none
      | e :: es =>
        if e = unit 'u' then
          match es with
          | a :: b :: c :: d :: rest =>
            match readHex4 a b c d, scanString rest with
            | some v, some (s, rest') => some (v :: s, rest')
            | _, _ => none
          | _ => none
        else
          match simpleEscape e, scanString es with
          | some v, some (s, rest') => some (v :: s, rest')
          | _, _ => none
    else if u.val < 0x20 then none
    else
      match scanString us with
      | some (s, rest') => some (u :: s, rest')
      | none => none

variable [JsonNumber N]

/-- A literal name or a number token. -/
def parseScalar (s : JsString) : Option (Json N × JsString) :=
  if startsWith s (js "null") then some (.null, s.drop 4)
  else if startsWith s (js "true") then some (.bool true, s.drop 4)
  else if startsWith s (js "false") then some (.bool false, s.drop 5)
  else
    let token := s.takeWhile isNumberUnit
    if token = [] then none
    else (JsonNumber.ofText token).map (fun n => (.num n, s.dropWhile isNumberUnit))

mutual

/-- One value with the text after it; the fuel bounds the nesting and the items. -/
def parseValue : ℕ → JsString → Option (Json N × JsString)
  | 0, _ => none
  | fuel + 1, s =>
    match skipSpace s with
    | [] => none
    | u :: us =>
      if u = unit '"' then (scanString us).map (fun p => (.str p.1, p.2))
      else if u = unit '[' then
        match skipSpace us with
        | [] => none
        | v :: vs =>
          if v = unit ']' then some (.arr [], vs)
          else (parseItems fuel (v :: vs)).map (fun p => (.arr p.1, p.2))
      else if u = unit '{' then
        match skipSpace us with
        | [] => none
        | v :: vs =>
          if v = unit '}' then some (.obj [], vs)
          else (parseMembers fuel (v :: vs)).map (fun p => (.obj (ofEntries p.1), p.2))
      else parseScalar (u :: us)

/-- The items of an array up to its closing bracket. -/
def parseItems : ℕ → JsString → Option (List (Json N) × JsString)
  | 0, _ => none
  | fuel + 1, s =>
    match parseValue fuel s with
    | none => none
    | some (j, rest) =>
      match skipSpace rest with
      | [] => none
      | u :: us =>
        if u = unit ',' then (parseItems fuel us).map (fun p => (j :: p.1, p.2))
        else if u = unit ']' then some ([j], us)
        else none

/-- The members of an object up to its closing brace. -/
def parseMembers : ℕ → JsString → Option (List (JsString × Json N) × JsString)
  | 0, _ => none
  | fuel + 1, s =>
    match skipSpace s with
    | [] => none
    | q :: qs =>
      if q = unit '"' then
        match scanString qs with
        | none => none
        | some (k, rest) =>
          match skipSpace rest with
          | [] => none
          | c :: cs =>
            if c = unit ':' then
              match parseValue fuel cs with
              | none => none
              | some (j, rest') =>
                match skipSpace rest' with
                | [] => none
                | u :: us =>
                  if u = unit ',' then (parseMembers fuel us).map (fun p => ((k, j) :: p.1, p.2))
                  else if u = unit '}' then some ([(k, j)], us)
                  else none
            else none
      else none

end

/-- `JSON.parse`; `none` is a `SyntaxError`. -/
def parse (s : JsString) : Option (Json N) :=
  match parseValue (s.length + 1) s with
  | some (j, rest) => if skipSpace rest = [] then some j else none
  | none => none

end Scanner

section Strings

theorem val_hexDigit {n : ℕ} (h : n < 16) : (hexDigit n).val = if n < 10 then 48 + n else 87 + n := by
  simp only [hexDigit, Fin.ofNat]
  split_ifs <;> omega

theorem hexValue_hexDigit {n : ℕ} (h : n < 16) : hexValue (hexDigit n) = some n := by
  unfold hexValue
  rw [val_hexDigit h]
  split_ifs <;> first | omega | (simp only [Option.some.injEq]; omega)

theorem readHex4_hex4 (u : CodeUnit) :
    readHex4 (hexDigit (u.val / 4096)) (hexDigit (u.val / 256 % 16)) (hexDigit (u.val / 16 % 16))
      (hexDigit (u.val % 16)) = some u := by
  have hu := u.isLt
  simp only [readHex4, hexValue_hexDigit (show u.val / 4096 < 16 by omega),
    hexValue_hexDigit (show u.val / 256 % 16 < 16 by omega),
    hexValue_hexDigit (show u.val / 16 % 16 < 16 by omega),
    hexValue_hexDigit (show u.val % 16 < 16 by omega)]
  simp only [Option.bind_eq_bind, Option.bind_some, Option.pure_def, Option.some.injEq]
  apply Fin.ext
  simp only [Fin.ofNat]
  omega

theorem scanString_simple {e v : CodeUnit} (he : e ≠ unit 'u') (hv : simpleEscape e = some v)
    (rest : JsString) :
    scanString (unit '\\' :: e :: rest) = (scanString rest).map (fun p => (v :: p.1, p.2)) := by
  rw [scanString.eq_def]
  simp only [show unit '\\' ≠ unit '"' by decide, he, hv, if_false, if_true]
  cases scanString rest <;> rfl

theorem scanString_hex (u : CodeUnit) (rest : JsString) :
    scanString (js "\\u" ++ hex4 u ++ rest) =
      (scanString rest).map (fun p => (u :: p.1, p.2)) := by
  have hjs : js "\\u" = [unit '\\', unit 'u'] := by decide
  rw [hjs, hex4]
  simp only [List.cons_append, List.nil_append]
  rw [scanString.eq_def]
  simp only [show unit '\\' ≠ unit '"' by decide, readHex4_hex4, if_false, if_true]
  cases scanString rest <;> rfl

theorem scanString_plain {u : CodeUnit} (hq : u ≠ unit '"') (hb : u ≠ unit '\\')
    (hc : ¬ u.val < 0x20) (rest : JsString) :
    scanString (u :: rest) = (scanString rest).map (fun p => (u :: p.1, p.2)) := by
  rw [scanString.eq_def]
  simp only [hq, hb, hc, if_false]
  cases scanString rest <;> rfl

/-- Scanning undoes the quoting of one code unit. -/
theorem scanString_quoteUnit (u : CodeUnit) (rest : JsString) :
    scanString (quoteUnit u ++ rest) = (scanString rest).map (fun p => (u :: p.1, p.2)) := by
  have hesc : ∀ (text : JsString) (e : CodeUnit), text = [unit '\\', e] → e ≠ unit 'u' →
      simpleEscape e = some u →
      scanString (text ++ rest) = (scanString rest).map (fun p => (u :: p.1, p.2)) := by
    rintro text e rfl he hv
    exact scanString_simple he hv rest
  unfold quoteUnit
  split_ifs with h1 h2 h3 h4 h5 h6 h7 h8
  · exact hesc _ (unit '"') (by decide) (by decide) (by rw [h1]; decide)
  · exact hesc _ (unit '\\') (by decide) (by decide) (by rw [h2]; decide)
  · exact hesc _ (unit 'b') (by decide) (by decide) (by rw [show u = 8 from Fin.ext h3]; decide)
  · exact hesc _ (unit 't') (by decide) (by decide) (by rw [show u = 9 from Fin.ext h4]; decide)
  · exact hesc _ (unit 'n') (by decide) (by decide) (by rw [show u = 10 from Fin.ext h5]; decide)
  · exact hesc _ (unit 'f') (by decide) (by decide) (by rw [show u = 12 from Fin.ext h6]; decide)
  · exact hesc _ (unit 'r') (by decide) (by decide) (by rw [show u = 13 from Fin.ext h7]; decide)
  · exact scanString_hex u rest
  · exact scanString_plain h1 h2 (fun hlt => h8 (Or.inl hlt)) rest

theorem plain_of_surrogate {u : CodeUnit} (h : 0xD800 ≤ u.val) :
    u ≠ unit '"' ∧ u ≠ unit '\\' ∧ ¬ u.val < 0x20 := by
  refine ⟨?_, ?_, by omega⟩
  · rintro rfl
    exact absurd h (by decide)
  · rintro rfl
    exact absurd h (by decide)

/-- Scanning a quoted string gives the string back, lone surrogates included. -/
theorem scanString_quoteUnits (s rest : JsString) :
    scanString (quoteUnits s ++ unit '"' :: rest) = some (s, rest) := by
  have hend : scanString (unit '"' :: rest) = some ([], rest) := by
    rw [scanString.eq_def]
    simp only [if_true]
  induction s using quoteUnits.induct with
  | case1 => simpa [quoteUnits] using hend
  | case2 u => rw [quoteUnits, scanString_quoteUnit, hend]; rfl
  | case3 u v us hpair ih =>
    simp only [Bool.and_eq_true, isHigh, isLow, decide_eq_true_eq] at hpair
    obtain ⟨hq, hb, hc⟩ := plain_of_surrogate (u := u) (by omega)
    obtain ⟨hq', hb', hc'⟩ := plain_of_surrogate (u := v) (by omega)
    have hraw : quoteUnits (u :: v :: us) = u :: v :: quoteUnits us := by
      simp [quoteUnits, isHigh, isLow, hpair]
    rw [hraw, List.cons_append, List.cons_append, scanString_plain hq hb hc,
      scanString_plain hq' hb' hc', ih]
    rfl
  | case4 u v us hpair ih =>
    rw [quoteUnits, if_neg hpair, List.append_assoc, scanString_quoteUnit, ih]
    rfl

theorem scanString_quote (s rest : JsString) :
    ∃ us, quote s ++ rest = unit '"' :: us ∧ scanString us = some (s, rest) :=
  ⟨quoteUnits s ++ [unit '"'] ++ rest, by simp [quote], by
    simpa using scanString_quoteUnits s rest⟩

end Strings

section RoundTrip

variable [JsonNumber N]

/-- What may follow a value: nothing that would continue a number token. -/
def Delimited (rest : JsString) : Prop := ∀ u ∈ rest.head?, isNumberUnit u = false

theorem delimited_nil : Delimited [] := by
  intro u hu
  simp at hu

theorem delimited_cons {u : CodeUnit} (h : isNumberUnit u = false) (us : JsString) :
    Delimited (u :: us) := by
  intro v hv
  simp only [List.head?_cons, Option.mem_def, Option.some.injEq] at hv
  rwa [← hv]

theorem skipSpace_cons {u : CodeUnit} (h : isSpace u = false) (us : JsString) :
    skipSpace (u :: us) = u :: us := by
  simp [skipSpace, h]

/-- The first character of a number token decides against every other token. -/
theorem isNumberUnit_head {u : CodeUnit} (h : isNumberUnit u = true) :
    isSpace u = false ∧ u ∉ [unit '"', unit '[', unit ']', unit '{', unit '}', unit 'n', unit 't',
      unit 'f'] := by
  simp only [isNumberUnit, decide_eq_true_eq, List.mem_cons, List.not_mem_nil, or_false] at h
  rcases h with ⟨hlo, hhi⟩ | rfl | rfl | rfl | rfl | rfl
  · constructor
    · simp only [isSpace, decide_eq_false_iff_not, List.mem_cons, List.not_mem_nil, or_false]
      omega
    · simp only [List.mem_cons, List.not_mem_nil, or_false]
      rintro (rfl | rfl | rfl | rfl | rfl | rfl | rfl | rfl) <;> revert hlo hhi <;> decide
  all_goals decide

/-- A value's text starts with a token of its own. -/
theorem stringify_head (j : Json N) :
    ∃ u us, stringify j = u :: us ∧ isSpace u = false ∧ u ≠ unit ']' := by
  cases j with
  | null => exact ⟨unit 'n', js "ull", show js "null" = _ by decide, by decide, by decide⟩
  | bool b =>
    cases b
    · exact ⟨unit 'f', js "alse", show js "false" = _ by decide, by decide, by decide⟩
    · exact ⟨unit 't', js "rue", show js "true" = _ by decide, by decide, by decide⟩
  | num n =>
    obtain ⟨u, us, hcons⟩ := List.exists_cons_of_ne_nil (JsonNumber.text_ne_nil n)
    have hu := isNumberUnit_head (JsonNumber.text_units n u (by simp [hcons]))
    refine ⟨u, us, by rw [stringify, hcons], hu.1, ?_⟩
    rintro rfl
    exact hu.2 (by decide)
  | str s => exact ⟨unit '"', _, rfl, by decide, by decide⟩
  | arr items => exact ⟨unit '[', _, rfl, by decide, by decide⟩
  | obj members => exact ⟨unit '{', _, rfl, by decide, by decide⟩

theorem parseScalar_num (n : N) {rest : JsString} (hrest : Delimited rest) :
    parseScalar (JsonNumber.text n ++ rest) = some (.num n, rest) := by
  have hall := JsonNumber.text_units n
  obtain ⟨u, us, hcons⟩ := List.exists_cons_of_ne_nil (JsonNumber.text_ne_nil n)
  have hu := (isNumberUnit_head (hall u (by simp [hcons]))).2
  have hno : ∀ v w : JsString, ∀ c : CodeUnit, v = c :: w → u ≠ c →
      startsWith (JsonNumber.text n ++ rest) v = false := by
    rintro v w c rfl hc
    simp [startsWith, hcons, List.isPrefixOf, Ne.symm hc]
  have htake : (JsonNumber.text n ++ rest).takeWhile isNumberUnit = JsonNumber.text n := by
    rw [List.takeWhile_append_of_pos hall]
    cases rest with
    | nil => simp
    | cons v vs => simp [hrest v (by simp)]
  have hdrop : (JsonNumber.text n ++ rest).dropWhile isNumberUnit = rest := by
    rw [List.dropWhile_append_of_pos hall]
    cases rest with
    | nil => simp
    | cons v vs => simp [hrest v (by simp)]
  have hn : u ≠ unit 'n' := by rintro rfl; exact hu (by decide)
  have ht : u ≠ unit 't' := by rintro rfl; exact hu (by decide)
  have hf : u ≠ unit 'f' := by rintro rfl; exact hu (by decide)
  rw [parseScalar, hno (js "null") (js "ull") _ (by decide) hn,
    hno (js "true") (js "rue") _ (by decide) ht, hno (js "false") (js "alse") _ (by decide) hf]
  simp [htake, hdrop, JsonNumber.text_ne_nil, JsonNumber.ofText_text]

theorem parseValue_scalar {u : CodeUnit} {us : JsString} (fuel : ℕ) (hspace : isSpace u = false)
    (hu : u ∉ [unit '"', unit '[', unit '{']) :
    parseValue (N := N) (fuel + 1) (u :: us) = parseScalar (u :: us) := by
  simp only [List.mem_cons, List.not_mem_nil, or_false, not_or] at hu
  rw [parseValue, skipSpace_cons hspace]
  simp only [hu, if_false]

/-- The texts that one value of nesting depth below the fuel is read back from. -/
def ReadsBack (j : Json N) : Prop :=
  ∀ fuel rest, (stringify j).length < fuel → Delimited rest →
    parseValue fuel (stringify j ++ rest) = some (rebuild j, rest)

theorem parseItems_stringify {items : List (Json N)} (hne : items ≠ [])
    (ih : ∀ j ∈ items, ReadsBack j) (fuel : ℕ) (rest : JsString)
    (hfuel : (join [unit ','] (items.map stringify)).length + 1 < fuel) :
    parseItems fuel (join [unit ','] (items.map stringify) ++ unit ']' :: rest) =
      some (items.map rebuild, rest) := by
  induction items generalizing fuel with
  | nil => exact absurd rfl hne
  | cons j items ihItems =>
    obtain ⟨fuel, rfl⟩ : ∃ f, fuel = f + 1 := ⟨fuel - 1, by omega⟩
    have hj := ih j (by simp)
    cases items with
    | nil =>
      simp only [List.map_cons, List.map_nil, join_singleton] at hfuel ⊢
      rw [parseItems, hj fuel _ (by omega) (delimited_cons (by decide) rest)]
      simp only [skipSpace_cons (show isSpace (unit ']') = false by decide),
        show unit ']' ≠ unit ',' by decide, if_false, if_true]
    | cons j' items =>
      simp only [List.map_cons, join_cons_cons, List.append_assoc, List.nil_append,
        List.cons_append, List.length_append, List.length_cons] at hfuel ⊢
      rw [parseItems, hj fuel _ (by omega) (delimited_cons (u := unit ',') (by decide) _)]
      simp only [skipSpace_cons (show isSpace (unit ',') = false by decide), if_true]
      have hrec := ihItems (by simp) (fun i hi => ih i (List.mem_cons_of_mem j hi)) fuel
        (by simp only [List.map_cons]; omega)
      simp only [List.map_cons] at hrec
      rw [hrec]
      rfl

theorem parseMembers_stringify {members : List (JsString × Json N)} (hne : members ≠ [])
    (ih : ∀ m ∈ members, ReadsBack m.2) (fuel : ℕ) (rest : JsString)
    (hfuel : (join [unit ','] (members.map (fun m => member m.1 (stringify m.2)))).length + 1
      < fuel) :
    parseMembers fuel (join [unit ','] (members.map (fun m => member m.1 (stringify m.2))) ++
        unit '}' :: rest) =
      some (members.map (fun m => (m.1, rebuild m.2)), rest) := by
  induction members generalizing fuel with
  | nil => exact absurd rfl hne
  | cons m members ihMembers =>
    obtain ⟨fuel, rfl⟩ : ∃ f, fuel = f + 1 := ⟨fuel - 1, by omega⟩
    have hm := ih m (by simp)
    have hkey : ∀ tail, Delimited tail → (stringify m.2).length < fuel →
        ∃ us, member m.1 (stringify m.2) ++ tail = unit '"' :: us ∧
          scanString us = some (m.1, unit ':' :: (stringify m.2 ++ tail)) ∧
          parseValue fuel (stringify m.2 ++ tail) = some (rebuild m.2, tail) := by
      intro tail htail hlen
      obtain ⟨us, hus, hscan⟩ := scanString_quote m.1 (unit ':' :: (stringify m.2 ++ tail))
      exact ⟨us, by simp [member, ← hus], hscan, hm fuel tail hlen htail⟩
    cases members with
    | nil =>
      simp only [List.map_cons, List.map_nil, join_singleton] at hfuel ⊢
      obtain ⟨us, hus, hscan, hval⟩ := hkey (unit '}' :: rest) (delimited_cons (by decide) rest)
        (by simp [member] at hfuel; omega)
      rw [hus, parseMembers, skipSpace_cons (by decide)]
      simp only [if_true, hscan, skipSpace_cons (show isSpace (unit ':') = false by decide), hval,
        skipSpace_cons (show isSpace (unit '}') = false by decide),
        show unit '}' ≠ unit ',' by decide, if_false]
    | cons m' members =>
      simp only [List.map_cons, join_cons_cons, List.append_assoc, List.nil_append,
        List.cons_append, List.length_append, List.length_cons] at hfuel ⊢
      obtain ⟨us, hus, hscan, hval⟩ := hkey _ (delimited_cons (u := unit ',') (by decide) _)
        (by simp [member] at hfuel; omega)
      rw [hus, parseMembers, skipSpace_cons (by decide)]
      simp only [if_true, hscan, skipSpace_cons (show isSpace (unit ':') = false by decide), hval,
        skipSpace_cons (show isSpace (unit ',') = false by decide)]
      have hrec := ihMembers (by simp) (fun i hi => ih i (List.mem_cons_of_mem m hi)) fuel
        (by simp only [List.map_cons]; omega)
      simp only [List.map_cons] at hrec
      rw [hrec]
      rfl

/-- Parsing reads a printed value back, whatever delimited text follows. -/
theorem parseValue_stringify (j : Json N) : ReadsBack j := by
  induction j with
  | null =>
    intro fuel rest hfuel _
    obtain ⟨fuel, rfl⟩ : ∃ f, fuel = f + 1 := ⟨fuel - 1, by omega⟩
    rw [stringify, show js "null" = unit 'n' :: js "ull" by decide, List.cons_append,
      parseValue_scalar fuel (by decide) (by decide)]
    rfl
  | bool b =>
    intro fuel rest hfuel _
    obtain ⟨fuel, rfl⟩ : ∃ f, fuel = f + 1 := ⟨fuel - 1, by omega⟩
    cases b
    · rw [stringify, if_neg (by decide), show js "false" = unit 'f' :: js "alse" by decide,
        List.cons_append, parseValue_scalar fuel (by decide) (by decide)]
      rfl
    · rw [stringify, if_pos rfl, show js "true" = unit 't' :: js "rue" by decide,
        List.cons_append, parseValue_scalar fuel (by decide) (by decide)]
      rfl
  | num n =>
    intro fuel rest hfuel hrest
    obtain ⟨fuel, rfl⟩ : ∃ f, fuel = f + 1 := ⟨fuel - 1, by omega⟩
    obtain ⟨u, us, hcons⟩ := List.exists_cons_of_ne_nil (JsonNumber.text_ne_nil n)
    have hu := isNumberUnit_head (JsonNumber.text_units n u (by simp [hcons]))
    have hscalar := parseScalar_num n hrest
    rw [hcons, List.cons_append] at hscalar
    rw [stringify, hcons, List.cons_append, parseValue_scalar fuel hu.1 ?_, hscalar]
    · rfl
    · intro hmem
      apply hu.2
      simp only [List.mem_cons, List.not_mem_nil, or_false] at hmem ⊢
      tauto
  | str s =>
    intro fuel rest hfuel _
    obtain ⟨fuel, rfl⟩ : ∃ f, fuel = f + 1 := ⟨fuel - 1, by omega⟩
    obtain ⟨us, hus, hscan⟩ := scanString_quote s rest
    rw [stringify, hus, parseValue, skipSpace_cons (by decide)]
    simp only [if_true, hscan]
    rfl
  | arr items ih =>
    intro fuel rest hfuel _
    obtain ⟨fuel, rfl⟩ : ∃ f, fuel = f + 1 := ⟨fuel - 1, by omega⟩
    simp only [stringify, brackets, stringifyItems_eq, List.length_cons, List.length_append,
      List.length_nil] at hfuel
    simp only [stringify, brackets, stringifyItems_eq, List.cons_append, List.append_assoc,
      List.nil_append, rebuild, rebuildItems_eq]
    rw [parseValue, skipSpace_cons (by decide)]
    simp only [show unit '[' ≠ unit '"' by decide, if_false, if_true]
    cases items with
    | nil => simp [skipSpace_cons (show isSpace (unit ']') = false by decide)]
    | cons j items =>
      have hitems := parseItems_stringify (by simp) ih fuel rest (by omega)
      obtain ⟨u, us, hhead, hspace, hclose⟩ := stringify_head j
      obtain ⟨vs, hvs⟩ : ∃ vs, join [unit ','] ((j :: items).map stringify) ++ unit ']' :: rest =
          u :: vs := by
        cases items <;> simp [join_cons_cons, hhead]
      rw [hvs] at hitems ⊢
      simp only [skipSpace_cons hspace, hclose, if_false, hitems]
      rfl
  | obj members ih =>
    intro fuel rest hfuel _
    obtain ⟨fuel, rfl⟩ : ∃ f, fuel = f + 1 := ⟨fuel - 1, by omega⟩
    simp only [stringify, braces, stringifyMembers_eq, List.length_cons, List.length_append,
      List.length_nil] at hfuel
    simp only [stringify, braces, stringifyMembers_eq, List.cons_append, List.append_assoc,
      List.nil_append, rebuild, rebuildMembers_eq]
    rw [parseValue, skipSpace_cons (by decide)]
    simp only [show unit '{' ≠ unit '"' by decide, show unit '{' ≠ unit '[' by decide, if_false,
      if_true]
    cases members with
    | nil =>
      simp [skipSpace_cons (show isSpace (unit '}') = false by decide), ofEntries,
        enumerationOrder]
    | cons m members =>
      have hmembers := parseMembers_stringify (by simp) ih fuel rest (by omega)
      obtain ⟨vs, hvs⟩ : ∃ vs, join [unit ','] ((m :: members).map (fun m =>
          member m.1 (stringify m.2))) ++ unit '}' :: rest = unit '"' :: vs := by
        cases members <;> simp [join_cons_cons, member, quote]
      rw [hvs] at hmembers ⊢
      simp only [skipSpace_cons (show isSpace (unit '"') = false by decide),
        show unit '"' ≠ unit '}' by decide, if_false, hmembers]
      rfl

/-- `JSON.parse(JSON.stringify(v))` is `v` with its objects rebuilt. -/
theorem parse_stringify (j : Json N) : parse (stringify j) = some (rebuild j) := by
  have h := parseValue_stringify j ((stringify j).length + 1) [] (by omega) delimited_nil
  rw [List.append_nil] at h
  rw [parse, h]
  rfl

/-- Values that print alike are equal up to the order of their members. -/
theorem rebuild_eq_of_stringify_eq {j j' : Json N} (h : stringify j = stringify j') :
    rebuild j = rebuild j' := by
  have hp := parse_stringify j
  rw [h, parse_stringify j'] at hp
  exact (Option.some.inj hp).symm

end RoundTrip

end Appspine.JsonText
