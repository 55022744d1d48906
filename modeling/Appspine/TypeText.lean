import Appspine.JsonParse

/-!
# Type expressions of TypeScript

The type expressions that JSON values have: literals, objects with optional properties and an
index signature, arrays, tuples, unions and intersections. A text is read as TypeScript reads it,
with `&` binding tighter than `|`, and either sign allowed in front of its first operand.
-/
namespace Appspine.TypeText
open JsText JsonText InsertionMap

variable {N : Type}

section Types

mutual

inductive TypeExpr (N : Type) where
  | unknown
  | number
  | boolean
  | string
  | null
  | literal (value : Json N)
  | object (members : List (Member N))
  | array (item : TypeExpr N)
  | tuple (items : List (TypeExpr N))
  | union (types : List (TypeExpr N))
  | intersection (types : List (TypeExpr N))

/-- A property, which may be optional, or the index signature of the other keys. -/
inductive Member (N : Type) where
  | property (name : JsString) (isOptional : Bool) (type : TypeExpr N)
  | index (type : TypeExpr N)

end

/-- The value has the type, by its structure alone. -/
inductive Inhabits : Json N → TypeExpr N → Prop
  | unknown (j : Json N) : Inhabits j .unknown
  | number (n : N) : Inhabits (.num n) .number
  | boolean (b : Bool) : Inhabits (.bool b) .boolean
  | string (s : JsString) : Inhabits (.str s) .string
  | null : Inhabits .null .null
  | literal (j : Json N) : Inhabits j (.literal j)
  | object {record : List (JsString × Json N)} {members : List (Member N)}
      (hproperty : ∀ name isOptional type, .property name isOptional type ∈ members →
        ∀ x, InsertionMap.get record name = some x → Inhabits x type)
      (hrequired : ∀ name type, .property name false type ∈ members → name ∈ keys record)
      (hindex : ∀ type, .index type ∈ members → ∀ e ∈ record, Inhabits e.2 type) :
      Inhabits (.obj record) (.object members)
  | array {items : List (Json N)} {type : TypeExpr N} (h : ∀ x ∈ items, Inhabits x type) :
      Inhabits (.arr items) (.array type)
  | tuple {items : List (Json N)} {types : List (TypeExpr N)} (hlength : items.length = types.length)
      (h : ∀ e ∈ items.zip types, Inhabits e.1 e.2) : Inhabits (.arr items) (.tuple types)
  | union {j : Json N} {type : TypeExpr N} {types : List (TypeExpr N)} (hmem : type ∈ types)
      (h : Inhabits j type) : Inhabits j (.union types)
  | intersection {j : Json N} {types : List (TypeExpr N)} (h : ∀ type ∈ types, Inhabits j type) :
      Inhabits j (.intersection types)

/-- One type stands for itself. -/
def unionOf : List (TypeExpr N) → TypeExpr N
  | [type] => type
  | types => .union types

def intersectionOf : List (TypeExpr N) → TypeExpr N
  | [type] => type
  | types => .intersection types

theorem inhabits_unionOf {j : Json N} {type : TypeExpr N} {types : List (TypeExpr N)}
    (hmem : type ∈ types) (h : Inhabits j type) : Inhabits j (unionOf types) := by
  match types, hmem with
  | [type'], hmem => exact List.mem_singleton.mp hmem ▸ h
  | _ :: _ :: _, hmem => exact .union hmem h

theorem inhabits_intersectionOf {j : Json N} {types : List (TypeExpr N)}
    (h : ∀ type ∈ types, Inhabits j type) : Inhabits j (intersectionOf types) := by
  match types, h with
  | [], h => exact .intersection h
  | [type], h => exact h type (List.mem_singleton_self type)
  | _ :: _ :: _, h => exact .intersection h

end Types

section Reader

variable [JsonNumber N]

def isLetter (u : CodeUnit) : Bool :=
  decide (65 ≤ u.val ∧ u.val ≤ 90 ∨ 97 ≤ u.val ∧ u.val ≤ 122)

/-- The text behind the sign, when it starts with that after white space. -/
def readSign (sign : CodeUnit) (s : JsString) : Option JsString :=
  match skipSpace s with
  | [] => none
  | u :: us => if u = sign then some us else none

def keywordType (name : JsString) : Option (TypeExpr N) :=
  if name = js "unknown" then some .unknown
  else if name = js "number" then some .number
  else if name = js "boolean" then some .boolean
  else if name = js "string" then some .string
  else if name = js "null" then some .null
  else if name = js "true" then some (.literal (.bool true))
  else if name = js "false" then some (.literal (.bool false))
  else none

/-- A property name in quotes, with its question mark. -/
def readName (s : JsString) : Option (JsString × Bool × JsString) := do
  let (name, rest) ← scanString (← readSign (unit '"') s)
  match readSign (unit '?') rest with
  | some rest => return (name, true, ← readSign (unit ':') rest)
  | none => return (name, false, ← readSign (unit ':') rest)

/-- `[key: string]:`. -/
def readIndex (s : JsString) : Option JsString := do
  let rest := skipSpace (← readSign (unit '[') s)
  if rest.takeWhile isLetter = [] then none
  let rest := skipSpace (← readSign (unit ':') (rest.dropWhile isLetter))
  if rest.takeWhile isLetter ≠ js "string" then none
  readSign (unit ':') (← readSign (unit ']') (rest.dropWhile isLetter))

/-- What a member may end with; before the closing brace it need not. -/
def readEnd (s : JsString) : Option JsString :=
  match readSign (unit ';') s with
  | some rest => some rest
  | none =>
    match readSign (unit ',') s with
    | some rest => some rest
    | none => (readSign (unit '}') s).map (fun _ => s)

mutual

/-- A type with the text after it; the fuel bounds the calls inside one another. -/
def readType : ℕ → JsString → Option (TypeExpr N × JsString)
  | 0, _ => none
  | fuel + 1, s =>
    (readUnion fuel ((readSign (unit '|') s).getD s)).map (fun p => (unionOf p.1, p.2))

def readUnion : ℕ → JsString → Option (List (TypeExpr N) × JsString)
  | 0, _ => none
  | fuel + 1, s =>
    match readIntersection fuel ((readSign (unit '&') s).getD s) with
    | none => none
    | some (types, rest) =>
      match readSign (unit '|') rest with
      | none => some ([intersectionOf types], rest)
      | some rest => (readUnion fuel rest).map (fun p => (intersectionOf types :: p.1, p.2))

def readIntersection : ℕ → JsString → Option (List (TypeExpr N) × JsString)
  | 0, _ => none
  | fuel + 1, s =>
    match readOperand fuel s with
    | none => none
    | some (type, rest) =>
      match readSign (unit '&') rest with
      | none => some ([type], rest)
      | some rest => (readIntersection fuel rest).map (fun p => (type :: p.1, p.2))

def readOperand : ℕ → JsString → Option (TypeExpr N × JsString)
  | 0, _ => none
  | fuel + 1, s =>
    match skipSpace s with
    | [] => none
    | u :: us =>
      if u = unit '"' then (scanString us).map (fun p => (.literal (.str p.1), p.2))
      else if u = unit '{' then (readMembers fuel us).map (fun p => (.object p.1, p.2))
      else if u = unit '[' then
        match readSign (unit ']') us with
        | some rest => some (.tuple [], rest)
        | none => (readItems fuel us).map (fun p => (.tuple p.1, p.2))
      else if isNumberUnit u then
        (JsonNumber.ofText ((u :: us).takeWhile isNumberUnit)).map
          (fun n => (.literal (.num n), (u :: us).dropWhile isNumberUnit))
      else
        let name := (u :: us).takeWhile isLetter
        let rest := (u :: us).dropWhile isLetter
        if name = js "Array" then
          match readSign (unit '<') rest with
          | none => none
          | some rest =>
            match readType fuel rest with
            | none => none
            | some (type, rest) => (readSign (unit '>') rest).map (fun rest => (.array type, rest))
        else (keywordType name).map (fun type => (type, rest))

/-- The members up to the closing brace. -/
def readMembers : ℕ → JsString → Option (List (Member N) × JsString)
  | 0, _ => none
  | fuel + 1, s =>
    match readSign (unit '}') s with
    | some rest => some ([], rest)
    | none =>
      match readName s with
      | some (name, isOptional, rest) =>
        match readType fuel rest with
        | none => none
        | some (type, rest) =>
          match readEnd rest with
          | none => none
          | some rest =>
            (readMembers fuel rest).map (fun p => (.property name isOptional type :: p.1, p.2))
      | none =>
        match readIndex s with
        | none => none
        | some rest =>
          match readType fuel rest with
          | none => none
          | some (type, rest) =>
            match readEnd rest with
            | none => none
            | some rest => (readMembers fuel rest).map (fun p => (.index type :: p.1, p.2))

/-- The types of a tuple up to its closing bracket. -/
def readItems : ℕ → JsString → Option (List (TypeExpr N) × JsString)
  | 0, _ => none
  | fuel + 1, s =>
    match readType fuel s with
    | none => none
    | some (type, rest) =>
      match readSign (unit ',') rest with
      | some rest => (readItems fuel rest).map (fun p => (type :: p.1, p.2))
      | none => (readSign (unit ']') rest).map (fun rest => ([type], rest))

end

/-- The text is this type expression. -/
def Reads (s : JsString) (type : TypeExpr N) : Prop :=
  ∃ n, ∀ fuel, n ≤ fuel → ∃ rest, readType fuel s = some (type, rest) ∧ skipSpace rest = []

theorem Reads.unique {s : JsString} {type type' : TypeExpr N} (h : Reads s type)
    (h' : Reads s type') : type = type' := by
  obtain ⟨n, hn⟩ := h
  obtain ⟨n', hn'⟩ := h'
  obtain ⟨rest, hread, -⟩ := hn (max n n') (le_max_left n n')
  obtain ⟨rest', hread', -⟩ := hn' (max n n') (le_max_right n n')
  rw [hread] at hread'
  exact congrArg Prod.fst (Option.some.inj hread')

end Reader

section Spaces

variable [JsonNumber N] {sign u : CodeUnit} {s rest : JsString}

theorem readSign_cons (h : isSpace sign = false) : readSign sign (sign :: rest) = some rest := by
  rw [readSign, skipSpace_cons h]
  exact if_pos rfl

theorem readSign_of_ne (hspace : isSpace u = false) (hne : u ≠ sign) :
    readSign sign (u :: rest) = none := by
  rw [readSign, skipSpace_cons hspace]
  exact if_neg hne

theorem skipSpace_space (h : isSpace u = true) : skipSpace (u :: s) = skipSpace s := by
  rw [skipSpace, List.dropWhile_cons_of_pos h]
  rfl

theorem readSign_space (h : isSpace u = true) : readSign sign (u :: s) = readSign sign s := by
  rw [readSign, skipSpace_space h]
  rfl

theorem readOperand_space (h : isSpace u = true) (fuel : ℕ) :
    readOperand (N := N) fuel (u :: s) = readOperand fuel s := by
  cases fuel with
  | zero => rfl
  | succ fuel => rw [readOperand, readOperand, skipSpace_space h]

theorem readIntersection_space (h : isSpace u = true) (fuel : ℕ) :
    readIntersection (N := N) fuel (u :: s) = readIntersection fuel s := by
  cases fuel with
  | zero => rfl
  | succ fuel => rw [readIntersection, readIntersection, readOperand_space h]

theorem readUnion_space (h : isSpace u = true) (fuel : ℕ) :
    readUnion (N := N) fuel (u :: s) = readUnion fuel s := by
  cases fuel with
  | zero => rfl
  | succ fuel =>
    rw [readUnion, readUnion, readSign_space h]
    cases readSign (unit '&') s with
    | none => rw [Option.getD_none, Option.getD_none, readIntersection_space h]
    | some rest => rfl

theorem readType_space (h : isSpace u = true) (fuel : ℕ) :
    readType (N := N) fuel (u :: s) = readType fuel s := by
  cases fuel with
  | zero => rfl
  | succ fuel =>
    rw [readType, readType, readSign_space h]
    cases readSign (unit '|') s with
    | none => rw [Option.getD_none, Option.getD_none, readUnion_space h]
    | some rest => rfl

theorem readName_space (h : isSpace u = true) : readName (u :: s) = readName s := by
  rw [readName, readName, readSign_space h]

theorem readIndex_space (h : isSpace u = true) : readIndex (u :: s) = readIndex s := by
  rw [readIndex, readIndex, readSign_space h]

theorem readMembers_space (h : isSpace u = true) (fuel : ℕ) :
    readMembers (N := N) fuel (u :: s) = readMembers fuel s := by
  cases fuel with
  | zero => rfl
  | succ fuel => rw [readMembers, readMembers, readSign_space h, readName_space h, readIndex_space h]

end Spaces

section Operands

variable [JsonNumber N]

/-- What follows is no part of a name or number. -/
def Parted (rest : JsString) : Prop :=
  ∀ u ∈ rest.head?, isLetter u = false ∧ isNumberUnit u = false

/-- What follows ends the type. -/
structure Closes (rest : JsString) : Prop where
  parted : Parted rest
  intersection : readSign (unit '&') rest = none
  union : readSign (unit '|') rest = none

theorem closes_nil : Closes [] := ⟨fun _ hu => (nomatch hu), rfl, rfl⟩

theorem closes_cons {u : CodeUnit} (h : u ∈ js ">;,]\x7d") (rest : JsString) :
    Closes (u :: rest) := by
  have hsigns : js ">;,]\x7d" = [unit '>', unit ';', unit ',', unit ']', unit '\x7d'] := rfl
  rw [hsigns] at h
  simp only [List.mem_cons, List.not_mem_nil, or_false] at h
  refine ⟨fun v hv => ?_, ?_, ?_⟩
  · obtain rfl : u = v := by simpa using hv
    rcases h with rfl | rfl | rfl | rfl | rfl <;> decide
  · refine readSign_of_ne ?_ ?_ <;> rcases h with rfl | rfl | rfl | rfl | rfl <;> decide
  · refine readSign_of_ne ?_ ?_ <;> rcases h with rfl | rfl | rfl | rfl | rfl <;> decide

/-- The text is this operand of unions and intersections. -/
structure ReadsAs (text : JsString) (type : TypeExpr N) : Prop where
  head : ∃ u us, text = u :: us ∧ isSpace u = false ∧ u ≠ unit '|' ∧ u ≠ unit '&' ∧ u ≠ unit ']'
  read : ∃ n, ∀ fuel, n ≤ fuel → ∀ rest, Parted rest →
    readOperand fuel (text ++ rest) = some (type, rest)

/-- Operands with their texts. -/
abbrev Operands (N : Type) := List (JsString × TypeExpr N)

def intersectionText (operands : Operands N) : JsString := join (js " & ") (operands.map Prod.fst)

def unionText (alternatives : List (Operands N)) : JsString :=
  join (js " | ") (alternatives.map intersectionText)

theorem parted_space (rest : JsString) : Parted (unit ' ' :: rest) := by
  intro u hu
  obtain rfl : unit ' ' = u := by simpa using hu
  decide

theorem readIntersection_text {operands : Operands N} (hne : operands ≠ [])
    (h : ∀ e ∈ operands, ReadsAs e.1 e.2) :
    ∃ n, ∀ fuel, n ≤ fuel → ∀ rest, Parted rest → readSign (unit '&') rest = none →
      readIntersection fuel (intersectionText operands ++ rest) =
        some (operands.map Prod.snd, rest) := by
  induction operands with
  | nil => exact absurd rfl hne
  | cons e operands ih =>
    obtain ⟨n, hn⟩ := (h e (by simp)).read
    cases operands with
    | nil =>
      refine ⟨n + 1, fun fuel hfuel rest hparted hsign => ?_⟩
      obtain ⟨fuel, rfl⟩ : ∃ f, fuel = f + 1 := ⟨fuel - 1, by omega⟩
      have htext : intersectionText [e] = e.1 := join_singleton _ _
      rw [htext, readIntersection, hn fuel (by omega) rest hparted]
      simp only [hsign]
      rfl
    | cons e' operands =>
      obtain ⟨m, hm⟩ := ih (List.cons_ne_nil _ _) fun x hx => h x (List.mem_cons_of_mem _ hx)
      refine ⟨max n m + 1, fun fuel hfuel rest hparted hsign => ?_⟩
      obtain ⟨fuel, rfl⟩ : ∃ f, fuel = f + 1 := ⟨fuel - 1, by omega⟩
      have htext : intersectionText (e :: e' :: operands) ++ rest = e.1 ++ (unit ' ' ::
          unit '&' :: unit ' ' :: (intersectionText (e' :: operands) ++ rest)) := by
        have hjs : js " & " = [unit ' ', unit '&', unit ' '] := rfl
        simp only [intersectionText, List.map_cons, join_cons_cons, hjs, List.append_assoc,
          List.cons_append, List.nil_append]
      rw [htext, readIntersection, hn fuel (by omega) _ (parted_space _)]
      simp only [readSign_space (show isSpace (unit ' ') = true by decide),
        readSign_cons (show isSpace (unit '&') = false by decide),
        readIntersection_space (show isSpace (unit ' ') = true by decide),
        hm fuel (by omega) rest hparted hsign]
      rfl

/-- A text that starts with none of the signs. -/
theorem readSign_head {text rest : JsString} {sign : CodeUnit}
    (h : ∃ u us, text = u :: us ∧ isSpace u = false ∧ u ≠ sign) :
    readSign sign (text ++ rest) = none := by
  obtain ⟨u, us, rfl, hspace, hne⟩ := h
  exact readSign_of_ne hspace hne

theorem intersectionText_head {operands : Operands N} (hne : operands ≠ [])
    (h : ∀ e ∈ operands, ReadsAs e.1 e.2) : ∃ u us, intersectionText operands = u :: us ∧
      isSpace u = false ∧ u ≠ unit '|' ∧ u ≠ unit '&' ∧ u ≠ unit ']' := by
  obtain ⟨e, operands, rfl⟩ := List.exists_cons_of_ne_nil hne
  obtain ⟨u, us, htext, hhead⟩ := (h e (by simp)).head
  cases operands with
  | nil =>
    have hsingle : intersectionText [e] = e.1 := join_singleton _ _
    exact ⟨u, us, by rw [hsingle, htext], hhead⟩
  | cons e' operands =>
    refine ⟨u, us ++ (js " & " ++ intersectionText (e' :: operands)), ?_, hhead⟩
    rw [intersectionText, List.map_cons, List.map_cons, join_cons_cons, htext]
    simp [intersectionText]

theorem unionText_head {alternatives : List (Operands N)} (hne : alternatives ≠ [])
    (h : ∀ operands ∈ alternatives, operands ≠ [] ∧ ∀ e ∈ operands, ReadsAs e.1 e.2) :
    ∃ u us, unionText alternatives = u :: us ∧
      isSpace u = false ∧ u ≠ unit '|' ∧ u ≠ unit '&' ∧ u ≠ unit ']' := by
  obtain ⟨operands, others, rfl⟩ := List.exists_cons_of_ne_nil hne
  obtain ⟨hoperands, hreads⟩ := h operands (by simp)
  obtain ⟨u, us, htext, hhead⟩ := intersectionText_head hoperands hreads
  cases others with
  | nil =>
    have hsingle : unionText [operands] = intersectionText operands := join_singleton _ _
    exact ⟨u, us, by rw [hsingle, htext], hhead⟩
  | cons next others =>
    refine ⟨u, us ++ (js " | " ++ unionText (next :: others)), ?_, hhead⟩
    rw [unionText, List.map_cons, List.map_cons, join_cons_cons, htext]
    simp [unionText]

theorem readUnion_text {alternatives : List (Operands N)} (hne : alternatives ≠ [])
    (h : ∀ operands ∈ alternatives, operands ≠ [] ∧ ∀ e ∈ operands, ReadsAs e.1 e.2) :
    ∃ n, ∀ fuel, n ≤ fuel → ∀ rest, Closes rest →
      readUnion fuel (unionText alternatives ++ rest) =
        some (alternatives.map (fun operands => intersectionOf (operands.map Prod.snd)), rest) := by
  induction alternatives with
  | nil => exact absurd rfl hne
  | cons operands alternatives ih =>
    obtain ⟨hoperands, hreads⟩ := h operands (by simp)
    obtain ⟨n, hn⟩ := readIntersection_text hoperands hreads
    obtain ⟨u, us, hhead, hspace, -, hand, -⟩ := intersectionText_head hoperands hreads
    have hnoSign : ∀ rest, readSign (unit '&') (intersectionText operands ++ rest) = none :=
      fun rest => readSign_head ⟨u, us, hhead, hspace, hand⟩
    cases alternatives with
    | nil =>
      refine ⟨n + 1, fun fuel hfuel rest hrest => ?_⟩
      obtain ⟨fuel, rfl⟩ : ∃ f, fuel = f + 1 := ⟨fuel - 1, by omega⟩
      have htext : unionText [operands] = intersectionText operands := join_singleton _ _
      rw [htext, readUnion, hnoSign, Option.getD_none,
        hn fuel (by omega) rest hrest.parted hrest.intersection]
      simp only [hrest.union]
      rfl
    | cons next alternatives =>
      obtain ⟨m, hm⟩ := ih (List.cons_ne_nil _ _) fun x hx => h x (List.mem_cons_of_mem _ hx)
      refine ⟨max n m + 1, fun fuel hfuel rest hrest => ?_⟩
      obtain ⟨fuel, rfl⟩ : ∃ f, fuel = f + 1 := ⟨fuel - 1, by omega⟩
      have htext : unionText (operands :: next :: alternatives) ++ rest =
          intersectionText operands ++ (unit ' ' :: unit '|' :: unit ' ' ::
            (unionText (next :: alternatives) ++ rest)) := by
        have hjs : js " | " = [unit ' ', unit '|', unit ' '] := rfl
        simp only [unionText, List.map_cons, join_cons_cons, hjs, List.append_assoc,
          List.cons_append, List.nil_append]
      have hsign : readSign (unit '&') (unit ' ' :: unit '|' :: unit ' ' ::
          (unionText (next :: alternatives) ++ rest)) = none := by
        rw [readSign_space (by decide)]
        exact readSign_of_ne (by decide) (by decide)
      rw [htext, readUnion, hnoSign, Option.getD_none, hn fuel (by omega) _ (parted_space _) hsign]
      simp only [readSign_space (show isSpace (unit ' ') = true by decide),
        readSign_cons (show isSpace (unit '|') = false by decide),
        readUnion_space (show isSpace (unit ' ') = true by decide), hm fuel (by omega) rest hrest]
      rfl

end Operands

section Joins

variable {separator x : JsString} {xs ys : List JsString}

theorem join_cons_eq : join separator (x :: ys) = x ++ ys.flatMap (separator ++ ·) := by
  induction ys generalizing x with
  | nil => rw [join_singleton, List.flatMap_nil, List.append_nil]
  | cons y ys ih => rw [join_cons_cons, ih, List.flatMap_cons, List.append_assoc, List.append_assoc]

/-- The text around one of the parts. -/
theorem join_split : join separator (xs ++ x :: ys) =
    xs.flatMap (· ++ separator) ++ (x ++ ys.flatMap (separator ++ ·)) := by
  induction xs with
  | nil => exact join_cons_eq
  | cons y xs ih =>
    cases xs with
    | nil =>
      rw [List.singleton_append, join_cons_cons, join_cons_eq]
      simp
    | cons z xs =>
      rw [List.cons_append, List.cons_append, join_cons_cons, ← List.cons_append, ih]
      simp only [List.flatMap_cons, List.append_assoc]

theorem join_append (hxs : xs ≠ []) (hys : ys ≠ []) :
    join separator (xs ++ ys) = join separator xs ++ (separator ++ join separator ys) := by
  obtain ⟨xs, x, rfl⟩ := (List.eq_nil_or_concat xs).resolve_left hxs
  obtain ⟨y, ys, rfl⟩ := List.exists_cons_of_ne_nil hys
  have hlast := @join_split separator x xs []
  rw [List.concat_eq_append, List.append_assoc, List.singleton_append, join_split, hlast,
    join_cons_eq, List.flatMap_cons]
  simp

end Joins

section Meaning

variable [JsonNumber N]

/-- The text is a type expression that every value with the property has. -/
def Means (text : JsString) (p : Json N → Prop) : Prop :=
  ∃ alternatives : List (Operands N), alternatives ≠ [] ∧
    (∀ operands ∈ alternatives, operands ≠ [] ∧ ∀ e ∈ operands, ReadsAs e.1 e.2) ∧
    text = unionText alternatives ∧
    ∀ j, p j → ∃ operands ∈ alternatives, ∀ e ∈ operands, Inhabits j e.2

variable {text : JsString} {p q : Json N → Prop}

theorem Means.mono (h : Means text p) (hpq : ∀ j, q j → p j) : Means text q := by
  obtain ⟨alternatives, hne, hreads, rfl, hsound⟩ := h
  exact ⟨alternatives, hne, hreads, rfl, fun j hj => hsound j (hpq j hj)⟩

theorem ReadsAs.means {type : TypeExpr N} (h : ReadsAs text type)
    (hsound : ∀ j, p j → Inhabits j type) : Means text p := by
  refine ⟨[[(text, type)]], List.cons_ne_nil _ _, ?_, ?_, fun j hj => ⟨_, List.mem_singleton_self _, ?_⟩⟩
  · intro operands hoperands
    rw [List.mem_singleton.mp hoperands]
    refine ⟨List.cons_ne_nil _ _, fun e he => ?_⟩
    rw [List.mem_singleton.mp he]
    exact h
  · rw [unionText, List.map_singleton, join_singleton, intersectionText, List.map_singleton,
      join_singleton]
  · intro e he
    rw [List.mem_singleton.mp he]
    exact hsound j hj

/-- The type is read wherever something follows that ends it. -/
theorem Means.exists_readType (h : Means text p) : ∃ type : TypeExpr N, (∀ j, p j → Inhabits j type) ∧
    ∃ n, ∀ fuel, n ≤ fuel → ∀ rest, Closes rest →
      readType fuel (text ++ rest) = some (type, rest) := by
  obtain ⟨alternatives, hne, hreads, rfl, hsound⟩ := h
  refine ⟨unionOf (alternatives.map (fun operands => intersectionOf (operands.map Prod.snd))),
    fun j hj => ?_, ?_⟩
  · obtain ⟨operands, hmem, hinhabits⟩ := hsound j hj
    refine inhabits_unionOf (List.mem_map_of_mem hmem) (inhabits_intersectionOf ?_)
    intro type htype
    obtain ⟨e, he, rfl⟩ := List.mem_map.mp htype
    exact hinhabits e he
  · obtain ⟨n, hn⟩ := readUnion_text hne hreads
    refine ⟨n + 1, fun fuel hfuel rest hrest => ?_⟩
    obtain ⟨fuel, rfl⟩ : ∃ f, fuel = f + 1 := ⟨fuel - 1, by omega⟩
    obtain ⟨u, us, hhead, hspace, hor, -⟩ := unionText_head hne hreads
    have hnoSign : readSign (unit '|') (unionText alternatives ++ rest) = none :=
      readSign_head ⟨u, us, hhead, hspace, hor⟩
    rw [readType, hnoSign, Option.getD_none, hn fuel (by omega) rest hrest]
    rfl

theorem Means.readSign_bracket (h : Means text p) (rest : JsString) :
    readSign (unit ']') (text ++ rest) = none := by
  obtain ⟨alternatives, hne, hreads, rfl, -⟩ := h
  obtain ⟨u, us, hhead, hspace, -, -, hbracket⟩ := unionText_head hne hreads
  exact readSign_head ⟨u, us, hhead, hspace, hbracket⟩

/-- A value with the property has the type that the text reads as. -/
theorem Means.exists_reads (h : Means text p) :
    ∃ type : TypeExpr N, Reads text type ∧ ∀ j, p j → Inhabits j type := by
  obtain ⟨type, hsound, n, hn⟩ := h.exists_readType
  refine ⟨type, ⟨n, fun fuel hfuel => ⟨[], ?_, rfl⟩⟩, hsound⟩
  have hread := hn fuel hfuel [] closes_nil
  rwa [List.append_nil] at hread

/-- Joined with `|`, a value with one of the properties. -/
theorem Means.union {texts : List (JsString × (Json N → Prop))} (hne : texts ≠ [])
    (h : ∀ e ∈ texts, Means e.1 e.2) :
    Means (join (js " | ") (texts.map Prod.fst)) (fun j => ∃ e ∈ texts, e.2 j) := by
  induction texts with
  | nil => exact absurd rfl hne
  | cons e texts ih =>
    cases texts with
    | nil =>
      rw [List.map_singleton, join_singleton]
      exact (h e (by simp)).mono fun j ⟨e', he', hj⟩ => List.mem_singleton.mp he' ▸ hj
    | cons e' texts =>
      obtain ⟨first, hfirst, hfirstReads, hfirstText, hfirstSound⟩ := h e (by simp)
      obtain ⟨others, hothers, hothersReads, hothersText, hothersSound⟩ :=
        ih (List.cons_ne_nil _ _) fun x hx => h x (List.mem_cons_of_mem _ hx)
      refine ⟨first ++ others, by simp [hfirst], ?_, ?_, ?_⟩
      · exact List.forall_mem_append.mpr ⟨hfirstReads, hothersReads⟩
      · rw [List.map_cons, List.map_cons, join_cons_cons, ← List.map_cons, hfirstText, hothersText,
          unionText, unionText, unionText, List.map_append, join_append (by simpa using hfirst)
            (by simpa using hothers), List.append_assoc]
      · rintro j ⟨x, hx, hj⟩
        rcases List.mem_cons.mp hx with rfl | hx
        · obtain ⟨operands, hmem, hinhabits⟩ := hfirstSound j hj
          exact ⟨operands, List.mem_append_left _ hmem, hinhabits⟩
        · obtain ⟨operands, hmem, hinhabits⟩ := hothersSound j ⟨x, hx, hj⟩
          exact ⟨operands, List.mem_append_right _ hmem, hinhabits⟩

omit [JsonNumber N] in
theorem unionText_split (before : List (Operands N)) (operands : Operands N)
    (after : List (Operands N)) : unionText (before ++ operands :: after) =
      (before.map intersectionText).flatMap (· ++ js " | ") ++ (intersectionText operands ++
        (after.map intersectionText).flatMap (js " | " ++ ·)) := by
  rw [unionText, List.map_append, List.map_cons, join_split]

theorem Means.and {text' : JsString} (h : Means text p) (h' : Means text' q) :
    Means (text ++ (js " & " ++ text')) (fun j => p j ∧ q j) := by
  obtain ⟨first, hfirst, hfirstReads, rfl, hfirstSound⟩ := h
  obtain ⟨others, hothers, hothersReads, rfl, hothersSound⟩ := h'
  obtain ⟨before, last, rfl⟩ := (List.eq_nil_or_concat first).resolve_left hfirst
  obtain ⟨head, after, rfl⟩ := List.exists_cons_of_ne_nil hothers
  rw [List.concat_eq_append] at hfirstReads hfirstSound ⊢
  obtain ⟨hlast, hlastReads⟩ := hfirstReads last (by simp)
  obtain ⟨hhead, hheadReads⟩ := hothersReads head (by simp)
  -- the last alternative of the one and the first of the other become one
  refine ⟨before ++ (last ++ head) :: after, by simp, ?_, ?_, ?_⟩
  · intro operands hmem
    rcases List.mem_append.mp hmem with hmem | hmem
    · exact hfirstReads operands (List.mem_append_left _ hmem)
    · rcases List.mem_cons.mp hmem with rfl | hmem
      · exact ⟨by simp [hlast], List.forall_mem_append.mpr ⟨hlastReads, hheadReads⟩⟩
      · exact hothersReads operands (List.mem_cons_of_mem _ hmem)
  · have hfused : intersectionText (last ++ head) =
        intersectionText last ++ (js " & " ++ intersectionText head) := by
      rw [intersectionText, List.map_append,
        join_append (by simpa using hlast) (by simpa using hhead)]
      rfl
    have hright := unionText_split [] head after
    rw [List.nil_append] at hright
    rw [unionText_split before last [], hright, unionText_split before _ after, hfused]
    simp
  · rintro j ⟨hp, hq⟩
    obtain ⟨operands, hmem, hinhabits⟩ := hfirstSound j hp
    obtain ⟨operands', hmem', hinhabits'⟩ := hothersSound j hq
    rcases List.mem_append.mp hmem with hmem | hmem
    · exact ⟨operands, List.mem_append_left _ hmem, hinhabits⟩
    · obtain rfl := List.mem_singleton.mp hmem
      rcases List.mem_cons.mp hmem' with rfl | hmem'
      · exact ⟨operands ++ operands', by simp,
          List.forall_mem_append.mpr ⟨hinhabits, hinhabits'⟩⟩
      · exact ⟨operands', by simp [hmem'], hinhabits'⟩

/-- Joined with `&`, a value with all of the properties. -/
theorem Means.intersection {texts : List (JsString × (Json N → Prop))} (hne : texts ≠ [])
    (h : ∀ e ∈ texts, Means e.1 e.2) :
    Means (join (js " & ") (texts.map Prod.fst)) (fun j => ∀ e ∈ texts, e.2 j) := by
  induction texts with
  | nil => exact absurd rfl hne
  | cons e texts ih =>
    have hfirst := h e (by simp)
    cases texts with
    | nil =>
      rw [List.map_singleton, join_singleton]
      exact hfirst.mono fun j hj => hj e (by simp)
    | cons e' texts =>
      have hothers := ih (List.cons_ne_nil _ _) fun x hx => h x (List.mem_cons_of_mem _ hx)
      rw [List.map_cons, List.map_cons, join_cons_cons, ← List.map_cons, List.append_assoc]
      exact (hfirst.and hothers).mono fun j hj =>
        ⟨hj e (by simp), fun x hx => hj x (List.mem_cons_of_mem _ hx)⟩

end Meaning

end Appspine.TypeText
