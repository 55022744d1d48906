import Appspine.TypeText

/-!
# The operands of a type expression

Keywords, literals, arrays, tuples and objects as they are printed, with the values that each of
them has.
-/
namespace Appspine.TypeText
open JsText JsonText InsertionMap

variable {N : Type} [JsonNumber N]

section Words

variable {name rest : JsString}

theorem takeWhile_letters (hname : name.all isLetter = true)
    (hrest : ∀ u ∈ rest.head?, isLetter u = false) :
    (name ++ rest).takeWhile isLetter = name ∧ (name ++ rest).dropWhile isLetter = rest := by
  have hall : ∀ u ∈ name, isLetter u = true := List.all_eq_true.mp hname
  rw [List.takeWhile_append_of_pos hall, List.dropWhile_append_of_pos hall]
  cases rest with
  | nil => simp
  | cons u rest => simp [hrest u rfl]

theorem letter_ne {u : CodeUnit} (h : isLetter u = true) (hnumber : isNumberUnit u = false) :
    isSpace u = false ∧ u ∉ [unit '"', unit '\x7b', unit '[', unit '|', unit '&', unit ']'] ∧
      isNumberUnit u = false := by
  simp only [isLetter, decide_eq_true_eq] at h
  refine ⟨?_, ?_, hnumber⟩
  · simp only [isSpace, decide_eq_false_iff_not, List.mem_cons, List.not_mem_nil, or_false]
    omega
  · simp only [List.mem_cons, List.not_mem_nil, or_false]
    rintro (rfl | rfl | rfl | rfl | rfl | rfl) <;> revert h <;> decide

/-- A word that starts with a letter of its own, read up to what follows it. -/
theorem readOperand_word {u : CodeUnit} {us : JsString} (hname : (u :: us).all isLetter = true)
    (hnumber : isNumberUnit u = false) (hrest : ∀ v ∈ rest.head?, isLetter v = false) (fuel : ℕ) :
    readOperand (N := N) (fuel + 1) (u :: us ++ rest) =
      if u :: us = js "Array" then
        match readSign (unit '<') rest with
        | none => none
        | some rest =>
          match readType fuel rest with
          | none => none
          | some (type, rest) => (readSign (unit '>') rest).map (fun rest => (.array type, rest))
      else (keywordType (u :: us)).map (fun type => (type, rest)) := by
  have hu : isLetter u = true := List.all_eq_true.mp hname u List.mem_cons_self
  obtain ⟨hspace, hne, -⟩ := letter_ne hu hnumber
  simp only [List.mem_cons, List.not_mem_nil, or_false, not_or] at hne
  obtain ⟨htake, hdrop⟩ := takeWhile_letters hname hrest
  rw [List.cons_append] at htake hdrop ⊢
  rw [readOperand, skipSpace_cons hspace]
  simp only [hne.1, hne.2.1, hne.2.2.1, hnumber, if_false, htake, hdrop]
  rfl

theorem readsAs_keyword {u : CodeUnit} {us : JsString} {type : TypeExpr N}
    (hname : (u :: us).all isLetter = true) (hnumber : isNumberUnit u = false)
    (harray : u :: us ≠ js "Array") (h : keywordType (u :: us) = some type) :
    ReadsAs (u :: us) type := by
  have hu : isLetter u = true := List.all_eq_true.mp hname u List.mem_cons_self
  obtain ⟨hspace, hne, -⟩ := letter_ne hu hnumber
  simp only [List.mem_cons, List.not_mem_nil, or_false, not_or] at hne
  refine ⟨⟨u, us, rfl, hspace, hne.2.2.2⟩, 1, fun fuel hfuel rest hrest => ?_⟩
  obtain ⟨fuel, rfl⟩ : ∃ f, fuel = f + 1 := ⟨fuel - 1, by omega⟩
  rw [readOperand_word hname hnumber (fun v hv => (hrest v hv).1), if_neg harray, h]
  rfl

/-- A number token, which is delimited from what follows it. -/
theorem readsAs_number (n : N) : ReadsAs (JsonNumber.text n) (.literal (.num n)) := by
  have hall := JsonNumber.text_units n
  obtain ⟨u, us, hcons⟩ := List.exists_cons_of_ne_nil (JsonNumber.text_ne_nil n)
  have hu : isNumberUnit u = true := hall u (by simp [hcons])
  obtain ⟨hspace, hne⟩ := isNumberUnit_head hu
  simp only [List.mem_cons, List.not_mem_nil, or_false, not_or] at hne
  have hsigns : u ≠ unit '|' ∧ u ≠ unit '&' ∧ u ≠ unit ']' := by
    refine ⟨?_, ?_, ?_⟩ <;>
    · rintro rfl
      exact absurd hu (by decide)
  refine ⟨⟨u, us, hcons, hspace, hsigns⟩, 1, fun fuel hfuel rest hrest => ?_⟩
  obtain ⟨fuel, rfl⟩ : ∃ f, fuel = f + 1 := ⟨fuel - 1, by omega⟩
  have htake : (JsonNumber.text n ++ rest).takeWhile isNumberUnit = JsonNumber.text n := by
    rw [List.takeWhile_append_of_pos hall]
    cases rest with
    | nil => simp
    | cons v vs => simp [(hrest v rfl).2]
  have hdrop : (JsonNumber.text n ++ rest).dropWhile isNumberUnit = rest := by
    rw [List.dropWhile_append_of_pos hall]
    cases rest with
    | nil => simp
    | cons v vs => simp [(hrest v rfl).2]
  rw [hcons, List.cons_append] at htake hdrop ⊢
  rw [readOperand, skipSpace_cons hspace]
  simp only [hne.1, hne.2.1, hne.2.2.2.1, hu, if_false, if_true, htake, hdrop]
  rw [← hcons, JsonNumber.ofText_text]
  rfl

theorem readsAs_string (s : JsString) : ReadsAs (quote s) (.literal (N := N) (.str s)) := by
  refine ⟨⟨_, _, rfl, by decide, by decide, by decide, by decide⟩, 1, fun fuel hfuel rest _ => ?_⟩
  obtain ⟨fuel, rfl⟩ : ∃ f, fuel = f + 1 := ⟨fuel - 1, by omega⟩
  obtain ⟨us, hus, hscan⟩ := scanString_quote s rest
  rw [hus, readOperand, skipSpace_cons (by decide)]
  simp only [if_true, hscan]
  rfl

theorem Means.array {text : JsString} {p : Json N → Prop} (h : Means text p) :
    Means (js "Array<" ++ text ++ js ">")
      (fun j => ∃ items, j = .arr items ∧ ∀ x ∈ items, p x) := by
  obtain ⟨type, hsound, n, hn⟩ := h.exists_readType
  have hread : ReadsAs (js "Array<" ++ text ++ js ">") (.array type) := by
    refine ⟨⟨_, _, rfl, by decide, by decide, by decide, by decide⟩, n + 1, fun fuel hfuel rest _ => ?_⟩
    obtain ⟨fuel, rfl⟩ : ∃ f, fuel = f + 1 := ⟨fuel - 1, by omega⟩
    have hsplit : js "Array<" ++ text ++ js ">" ++ rest =
        unit 'A' :: js "rray" ++ (unit '<' :: (text ++ unit '>' :: rest)) := by
      rw [List.append_assoc, List.append_assoc]
      rfl
    have harray : unit 'A' :: js "rray" = js "Array" := rfl
    rw [hsplit, readOperand_word (by decide) (by decide) (fun v hv => ?_), if_pos harray]
    · simp only [readSign_cons (show isSpace (unit '<') = false by decide),
        hn fuel (by omega) _ (closes_cons (u := unit '>') (by decide) rest),
        readSign_cons (show isSpace (unit '>') = false by decide)]
      rfl
    · obtain rfl : unit '<' = v := by simpa using hv
      decide
  refine hread.means ?_
  rintro j ⟨items, rfl, hitems⟩
  exact .array fun x hx => hsound x (hitems x hx)

end Words

section Lists

/-- The texts of a list with commas in between, up to the closing bracket. -/
theorem readItems_text {texts : List (JsString × (Json N → Prop))} (hne : texts ≠ [])
    (h : ∀ e ∈ texts, Means e.1 e.2) :
    ∃ types : List (TypeExpr N),
      List.Forall₂ (fun e type => ∀ j, e.2 j → Inhabits j type) texts types ∧
      ∃ n, ∀ fuel, n ≤ fuel → ∀ rest,
        readItems fuel (join [unit ','] (texts.map Prod.fst) ++ unit ']' :: rest) =
          some (types, rest) := by
  induction texts with
  | nil => exact absurd rfl hne
  | cons e texts ih =>
    obtain ⟨type, hsound, n, hn⟩ := (h e (by simp)).exists_readType
    cases texts with
    | nil =>
      refine ⟨[type], .cons hsound .nil, n + 1, fun fuel hfuel rest => ?_⟩
      obtain ⟨fuel, rfl⟩ : ∃ f, fuel = f + 1 := ⟨fuel - 1, by omega⟩
      have hcomma : readSign (unit ',') (unit ']' :: rest) = none :=
        readSign_of_ne (by decide) (by decide)
      rw [List.map_singleton, join_singleton, readItems,
        hn fuel (by omega) _ (closes_cons (by decide) rest)]
      simp only [hcomma, readSign_cons (show isSpace (unit ']') = false by decide)]
      rfl
    | cons e' texts =>
      obtain ⟨types, hsounds, m, hm⟩ :=
        ih (List.cons_ne_nil _ _) fun x hx => h x (List.mem_cons_of_mem _ hx)
      refine ⟨type :: types, .cons hsound hsounds, max n m + 1, fun fuel hfuel rest => ?_⟩
      obtain ⟨fuel, rfl⟩ : ∃ f, fuel = f + 1 := ⟨fuel - 1, by omega⟩
      have hsplit : join [unit ','] ((e :: e' :: texts).map Prod.fst) ++ unit ']' :: rest =
          e.1 ++ unit ',' :: (join [unit ','] ((e' :: texts).map Prod.fst) ++
            unit ']' :: rest) := by
        simp only [List.map_cons, join_cons_cons, List.append_assoc, List.cons_append,
          List.nil_append]
      rw [hsplit, readItems, hn fuel (by omega) _ (closes_cons (u := unit ',') (by decide) _)]
      simp only [readSign_cons (show isSpace (unit ',') = false by decide), hm fuel (by omega) rest]
      rfl

theorem Means.tuple {texts : List (JsString × (Json N → Prop))}
    (h : ∀ e ∈ texts, Means e.1 e.2) :
    Means (brackets (texts.map Prod.fst))
      (fun j => ∃ items, j = .arr items ∧ List.Forall₂ (fun e x => e.2 x) texts items) := by
  have hread : ∃ types : List (TypeExpr N),
      List.Forall₂ (fun e type => ∀ j, e.2 j → Inhabits j type) texts types ∧
        ReadsAs (brackets (texts.map Prod.fst)) (.tuple types) := by
    cases texts with
    | nil =>
      refine ⟨[], .nil, ⟨_, _, rfl, by decide, by decide, by decide, by decide⟩, 1,
        fun fuel hfuel rest _ => ?_⟩
      obtain ⟨fuel, rfl⟩ : ∃ f, fuel = f + 1 := ⟨fuel - 1, by omega⟩
      rfl
    | cons e texts =>
      obtain ⟨types, hsound, n, hn⟩ := readItems_text (List.cons_ne_nil e texts) h
      refine ⟨types, hsound, ⟨_, _, rfl, by decide, by decide, by decide, by decide⟩, n + 1,
        fun fuel hfuel rest _ => ?_⟩
      obtain ⟨fuel, rfl⟩ : ∃ f, fuel = f + 1 := ⟨fuel - 1, by omega⟩
      have hsplit : brackets ((e :: texts).map Prod.fst) ++ rest =
          unit '[' :: (join [unit ','] ((e :: texts).map Prod.fst) ++ unit ']' :: rest) := by
        simp only [brackets, List.append_assoc, List.cons_append, List.nil_append]
      have hclose : readSign (unit ']')
          (join [unit ','] ((e :: texts).map Prod.fst) ++ unit ']' :: rest) = none := by
        rw [List.map_cons, join_cons_eq, List.append_assoc]
        exact (h e (by simp)).readSign_bracket _
      rw [hsplit, readOperand, skipSpace_cons (by decide)]
      simp only [show unit '[' ≠ unit '"' by decide, show unit '[' ≠ unit '\x7b' by decide,
        if_false, if_true, hclose, hn fuel (by omega) rest]
      rfl
  obtain ⟨types, hsound, hread⟩ := hread
  refine hread.means ?_
  rintro j ⟨items, rfl, hitems⟩
  refine .tuple ?_ ?_
  · rw [← hitems.length_eq, hsound.length_eq]
  · clear hread h
    induction hitems generalizing types with
    | nil =>
      cases hsound
      intro e he
      cases he
    | cons hx _ ih =>
      cases hsound with
      | cons htype hsound =>
        intro e he
        rcases List.mem_cons.mp he with rfl | he
        · exact htype _ hx
        · exact ih _ hsound e he

end Lists

section Members

/-- A property of an object type: its type as text, and the values that have it. -/
structure Field (N : Type) where
  name : JsString
  isOptional : Bool
  text : JsString
  accepts : Json N → Prop

def mark (isOptional : Bool) : JsString := if isOptional then [unit '?'] else []

omit [JsonNumber N] in
theorem readName_text (name : JsString) (isOptional : Bool) (rest : JsString) :
    readName (quote name ++ (mark isOptional ++ unit ':' :: rest)) =
      some (name, isOptional, rest) := by
  obtain ⟨us, hus, hscan⟩ := scanString_quote name (mark isOptional ++ unit ':' :: rest)
  rw [hus, readName, readSign_cons (by decide)]
  simp only [Option.bind_eq_bind, Option.bind_some, hscan]
  have hcolon : readSign (unit ':') (unit ':' :: rest) = some rest := readSign_cons (by decide)
  cases isOptional with
  | false =>
    have hmark : readSign (unit '?') (unit ':' :: rest) = none :=
      readSign_of_ne (by decide) (by decide)
    simp only [mark, Bool.false_eq_true, if_false, List.nil_append, hmark, hcolon]
    rfl
  | true =>
    have hmark : readSign (unit '?') (unit '?' :: unit ':' :: rest) = some (unit ':' :: rest) :=
      readSign_cons (by decide)
    simp only [mark, if_true, List.singleton_append, hmark, hcolon]
    rfl

theorem readType_spaces {gap : JsString} (h : ∀ u ∈ gap, isSpace u = true) (fuel : ℕ)
    (s : JsString) : readType (N := N) fuel (gap ++ s) = readType fuel s := by
  induction gap with
  | nil => rfl
  | cons u gap ih =>
    rw [List.cons_append, readType_space (h u (by simp)), ih fun v hv => h v (by simp [hv])]

/-- One property, whatever it ends with. -/
theorem readMembers_property {text gap : JsString} {p : Json N → Prop} (h : Means text p)
    (hgap : ∀ u ∈ gap, isSpace u = true) (name : JsString) (isOptional : Bool) :
    ∃ type : TypeExpr N, (∀ j, p j → Inhabits j type) ∧ ∃ n, ∀ fuel, n ≤ fuel → ∀ rest rest',
      Closes rest → readEnd rest = some rest' →
      readMembers (fuel + 1)
          (quote name ++ (mark isOptional ++ unit ':' :: (gap ++ (text ++ rest)))) =
        (readMembers fuel rest').map
          (fun p => (.property name isOptional type :: p.1, p.2)) := by
  obtain ⟨type, hsound, n, hn⟩ := h.exists_readType
  refine ⟨type, hsound, n, fun fuel hfuel rest rest' hrest hend => ?_⟩
  have hclose : readSign (unit '\x7d')
      (quote name ++ (mark isOptional ++ unit ':' :: (gap ++ (text ++ rest)))) = none :=
    readSign_of_ne (by decide) (by decide)
  rw [readMembers, hclose]
  simp only [readName_text, readType_spaces hgap, hn fuel hfuel rest hrest, hend]

/-- The property in the members that were read. -/
def Reflects (f : Field N) (m : Member N) : Prop :=
  ∃ type, m = .property f.name f.isOptional type ∧ ∀ j, f.accepts j → Inhabits j type

omit [JsonNumber N] in
theorem inhabits_object {fields : List (Field N)} {members others : List (Member N)}
    (h : List.Forall₂ Reflects fields members)
    (hothers : ∀ m ∈ others, ∃ type, m = .index type ∧ ∀ j, Inhabits j type)
    {record : List (JsString × Json N)}
    (hfields : ∀ f ∈ fields, (∀ x, InsertionMap.get record f.name = some x → f.accepts x) ∧
      (f.isOptional = false → f.name ∈ keys record)) :
    Inhabits (.obj record) (.object (members ++ others)) := by
  have hmember : ∀ m ∈ members, ∃ f ∈ fields, Reflects f m := by
    intro m hm
    induction h with
    | nil => cases hm
    | cons hfirst _ ih =>
      rcases List.mem_cons.mp hm with rfl | hm
      · exact ⟨_, List.mem_cons_self, hfirst⟩
      · obtain ⟨f, hf, hreflects⟩ := ih (fun f hf => hfields f (List.mem_cons_of_mem _ hf)) hm
        exact ⟨f, List.mem_cons_of_mem _ hf, hreflects⟩
  have hproperty : ∀ {name isOptional type}, .property name isOptional type ∈ members ++ others →
      ∃ f ∈ fields, f.name = name ∧ f.isOptional = isOptional ∧
        ∀ j, f.accepts j → Inhabits j type := by
    intro name isOptional type hmem
    rcases List.mem_append.mp hmem with hmem | hmem
    · obtain ⟨f, hf, type', heq, hsound⟩ := hmember _ hmem
      obtain ⟨rfl, rfl, rfl⟩ := Member.property.inj heq
      exact ⟨f, hf, rfl, rfl, hsound⟩
    · obtain ⟨type', heq, -⟩ := hothers _ hmem
      cases heq
  refine .object ?_ ?_ ?_
  · intro name isOptional type hmem x hx
    obtain ⟨f, hf, rfl, -, hsound⟩ := hproperty hmem
    exact hsound x ((hfields f hf).1 x hx)
  · intro name type hmem
    obtain ⟨f, hf, rfl, hrequired, -⟩ := hproperty hmem
    exact (hfields f hf).2 hrequired
  · intro type hmem e _
    rcases List.mem_append.mp hmem with hmem | hmem
    · obtain ⟨f, -, type', heq, -⟩ := hmember _ hmem
      cases heq
    · obtain ⟨type', heq, hall⟩ := hothers _ hmem
      obtain rfl := Member.index.inj heq
      exact hall e.2

end Members

section Objects

/-- `"name"?: type;`. -/
def fieldText (f : Field N) : JsString :=
  quote f.name ++ mark f.isOptional ++ js ": " ++ f.text ++ js ";"

omit [JsonNumber N] in
theorem readEnd_semicolon (rest : JsString) : readEnd (unit ';' :: rest) = some rest := by
  rw [readEnd, readSign_cons (by decide)]

/-- Properties that end in semicolons, with a space after each. -/
theorem readMembers_fields {fields : List (Field N)} (h : ∀ f ∈ fields, Means f.text f.accepts) :
    ∃ members, List.Forall₂ Reflects fields members ∧ ∃ n, ∀ fuel, n ≤ fuel → ∀ rest,
      readMembers (fuel + fields.length)
          (fields.flatMap (fun f => fieldText f ++ [unit ' ']) ++ rest) =
        (readMembers fuel rest).map (fun p => (members ++ p.1, p.2)) := by
  induction fields with
  | nil =>
    refine ⟨[], .nil, 0, fun fuel _ rest => ?_⟩
    simp
  | cons f fields ih =>
    obtain ⟨members, hmembers, m, hm⟩ := ih fun x hx => h x (List.mem_cons_of_mem _ hx)
    have hgap : ∀ u ∈ [unit ' '], isSpace u = true := by
      intro u hu
      rw [List.mem_singleton.mp hu]
      decide
    obtain ⟨type, hsound, n, hn⟩ :=
      readMembers_property (h f (by simp)) hgap f.name f.isOptional
    refine ⟨.property f.name f.isOptional type :: members, .cons ⟨type, rfl, hsound⟩ hmembers,
      max n m, fun fuel hfuel rest => ?_⟩
    have hsplit : (f :: fields).flatMap (fun f => fieldText f ++ [unit ' ']) ++ rest =
        quote f.name ++ (mark f.isOptional ++ unit ':' :: ([unit ' '] ++ (f.text ++ unit ';' ::
          unit ' ' :: (fields.flatMap (fun f => fieldText f ++ [unit ' ']) ++ rest)))) := by
      have hcolon : js ": " = [unit ':', unit ' '] := rfl
      have hsemicolon : js ";" = [unit ';'] := rfl
      simp only [List.flatMap_cons, fieldText, hcolon, hsemicolon, List.append_assoc,
        List.cons_append, List.nil_append]
    rw [hsplit, List.length_cons, ← Nat.add_assoc, hn (fuel + fields.length) (by omega) _ _
      (closes_cons (u := unit ';') (by decide) _) (readEnd_semicolon _),
      readMembers_space (by decide), hm fuel (by omega), Option.map_map]
    rfl

/-- `{ ... }`, with an index signature for the other keys or without. -/
def objectText (fields : List (Field N)) (isOpen : Bool) : JsString :=
  js "\x7b " ++ join (js " ") (fields.map fieldText) ++
    (if isOpen then js " [key: string]: unknown;" else []) ++ js " \x7d"

omit [JsonNumber N] in
theorem join_fields (fields : List (Field N)) (rest : JsString) :
    skipSpace (join (js " ") (fields.map fieldText) ++ unit ' ' :: rest) =
      skipSpace (fields.flatMap (fun f => fieldText f ++ [unit ' ']) ++ rest) := by
  rcases List.eq_nil_or_concat fields with rfl | ⟨before, last, rfl⟩
  · exact skipSpace_space (by decide)
  · have hspace : js " " = [unit ' '] := rfl
    rw [List.concat_eq_append, List.map_append, List.map_singleton, join_split, hspace]
    simp [List.flatMap_map]

theorem readMembers_skipSpace (fuel : ℕ) (s : JsString) :
    readMembers (N := N) fuel (skipSpace s) = readMembers fuel s := by
  induction s with
  | nil => rfl
  | cons u s ih =>
    by_cases hu : isSpace u = true
    · rw [skipSpace_space hu, ih, readMembers_space hu]
    · rw [skipSpace_cons (by simpa using hu)]

theorem readsAs_unknown : ReadsAs (js "unknown") (.unknown : TypeExpr N) :=
  @readsAs_keyword N _ (unit 'u') (js "nknown") _ (by decide) (by decide) (by decide) rfl

/-- The end of an object type: the index signature, if there is one, and the brace. -/
theorem readMembers_end (isOpen : Bool) :
    ∃ others : List (Member N), (∀ m ∈ others, ∃ type, m = .index type ∧ ∀ j, Inhabits j type) ∧
      ∃ n, ∀ fuel, n ≤ fuel → ∀ rest, readMembers fuel
        ((if isOpen then js "[key: string]: unknown; " else []) ++ unit '\x7d' :: rest) =
          some (others, rest) := by
  have hbrace : ∀ fuel rest, readMembers (N := N) (fuel + 1) (unit '\x7d' :: rest) =
      some ([], rest) := by
    intro fuel rest
    rw [readMembers, readSign_cons (by decide)]
  cases isOpen with
  | false =>
    refine ⟨[], by simp, 1, fun fuel hfuel rest => ?_⟩
    obtain ⟨fuel, rfl⟩ : ∃ f, fuel = f + 1 := ⟨fuel - 1, by omega⟩
    exact hbrace fuel rest
  | true =>
    obtain ⟨type, hsound, n, hn⟩ :=
      (readsAs_unknown.means (p := fun _ : Json N => True) fun j _ => .unknown j).exists_readType
    refine ⟨[.index type], fun m hm => ⟨type, List.mem_singleton.mp hm, fun j => hsound j trivial⟩,
      n + 2, fun fuel hfuel rest => ?_⟩
    obtain ⟨fuel, rfl⟩ : ∃ f, fuel = f + 1 := ⟨fuel - 1, by omega⟩
    obtain ⟨fuel', rfl⟩ : ∃ f, fuel = f + 1 := ⟨fuel - 1, by omega⟩
    have hsplit : js "[key: string]: unknown; " ++ unit '\x7d' :: rest =
        js "[key: string]:" ++ (unit ' ' :: (js "unknown" ++ unit ';' :: unit ' ' ::
          unit '\x7d' :: rest)) := rfl
    have hname : readName (js "[key: string]:" ++ (unit ' ' :: (js "unknown" ++ unit ';' ::
        unit ' ' :: unit '\x7d' :: rest))) = none := rfl
    have hindex : readIndex (js "[key: string]:" ++ (unit ' ' :: (js "unknown" ++ unit ';' ::
        unit ' ' :: unit '\x7d' :: rest))) = some (unit ' ' :: (js "unknown" ++ unit ';' ::
          unit ' ' :: unit '\x7d' :: rest)) := rfl
    have hclose : readSign (unit '\x7d') (js "[key: string]:" ++ (unit ' ' :: (js "unknown" ++
        unit ';' :: unit ' ' :: unit '\x7d' :: rest))) = none := rfl
    rw [if_pos rfl, hsplit, readMembers, hclose]
    simp only [hname, hindex, readType_space (show isSpace (unit ' ') = true by decide),
      hn (fuel' + 1) (by omega) _ (closes_cons (u := unit ';') (by decide) _), readEnd_semicolon,
      readMembers_space (show isSpace (unit ' ') = true by decide), hbrace]
    rfl

theorem Means.object {fields : List (Field N)} (h : ∀ f ∈ fields, Means f.text f.accepts)
    (isOpen : Bool) : Means (objectText fields isOpen) (fun j => ∃ record, j = .obj record ∧
      ∀ f ∈ fields, (∀ x, InsertionMap.get record f.name = some x → f.accepts x) ∧
        (f.isOptional = false → f.name ∈ keys record)) := by
  obtain ⟨members, hmembers, n, hn⟩ := readMembers_fields h
  obtain ⟨others, hothers, m, hm⟩ := readMembers_end (N := N) isOpen
  have hread : ReadsAs (objectText fields isOpen) (.object (members ++ others)) := by
    refine ⟨⟨_, _, rfl, by decide, by decide, by decide, by decide⟩, max n m + fields.length + 1,
      fun fuel hfuel rest _ => ?_⟩
    obtain ⟨fuel, rfl⟩ : ∃ f, fuel = f + fields.length + 1 := ⟨fuel - fields.length - 1, by omega⟩
    have hsplit : objectText fields isOpen ++ rest = unit '\x7b' :: unit ' ' ::
        (join (js " ") (fields.map fieldText) ++ unit ' ' ::
          ((if isOpen then js "[key: string]: unknown; " else []) ++ unit '\x7d' :: rest)) := by
      have hstart : js "\x7b " = [unit '\x7b', unit ' '] := rfl
      have hend : js " \x7d" = [unit ' ', unit '\x7d'] := rfl
      cases isOpen with
      | false => simp [objectText, hstart, hend]
      | true =>
        have hindex : js " [key: string]: unknown;" =
            unit ' ' :: js "[key: string]: unknown;" := rfl
        have hspace : js "[key: string]: unknown; " =
            js "[key: string]: unknown;" ++ [unit ' '] := rfl
        simp only [objectText, hstart, hend, hindex, hspace, if_true, List.append_assoc,
          List.cons_append, List.nil_append]
    rw [hsplit, readOperand, skipSpace_cons (by decide)]
    simp only [show unit '\x7b' ≠ unit '"' by decide, if_false, if_true,
      readMembers_space (show isSpace (unit ' ') = true by decide)]
    rw [← readMembers_skipSpace, join_fields, readMembers_skipSpace, hn fuel (by omega),
      hm fuel (by omega)]
    rfl
  refine hread.means ?_
  rintro j ⟨record, rfl, hfields⟩
  exact inhabits_object hmembers hothers hfields

omit [JsonNumber N] in
theorem readEnd_comma (rest : JsString) : readEnd (unit ',' :: rest) = some rest := by
  have hsemicolon : readSign (unit ';') (unit ',' :: rest) = none :=
    readSign_of_ne (by decide) (by decide)
  rw [readEnd, hsemicolon, readSign_cons (by decide)]

omit [JsonNumber N] in
theorem readEnd_brace (rest : JsString) :
    readEnd (unit '\x7d' :: rest) = some (unit '\x7d' :: rest) := by
  have hsemicolon : readSign (unit ';') (unit '\x7d' :: rest) = none :=
    readSign_of_ne (by decide) (by decide)
  have hcomma : readSign (unit ',') (unit '\x7d' :: rest) = none :=
    readSign_of_ne (by decide) (by decide)
  rw [readEnd, hsemicolon, hcomma, readSign_cons (by decide)]
  rfl

/-- Properties with commas in between, as JSON writes them. -/
theorem readMembers_members {fields : List (Field N)} (h : ∀ f ∈ fields, Means f.text f.accepts)
    (hrequired : ∀ f ∈ fields, f.isOptional = false) :
    ∃ members, List.Forall₂ Reflects fields members ∧ ∃ n, ∀ fuel, n ≤ fuel → ∀ rest,
      readMembers fuel (join [unit ','] (fields.map (fun f => member f.name f.text)) ++
        unit '\x7d' :: rest) = some (members, rest) := by
  have hmember : ∀ f ∈ fields, ∀ rest, member f.name f.text ++ rest =
      quote f.name ++ (mark f.isOptional ++ unit ':' :: ([] ++ (f.text ++ rest))) := by
    intro f hf rest
    simp only [member, mark, hrequired f hf, Bool.false_eq_true, if_false, List.append_assoc,
      List.cons_append, List.nil_append]
  induction fields with
  | nil =>
    refine ⟨[], .nil, 1, fun fuel hfuel rest => ?_⟩
    obtain ⟨fuel, rfl⟩ : ∃ f, fuel = f + 1 := ⟨fuel - 1, by omega⟩
    rw [List.map_nil, join_nil, List.nil_append, readMembers, readSign_cons (by decide)]
  | cons f fields ih =>
    obtain ⟨type, hsound, n, hn⟩ :=
      readMembers_property (h f (by simp)) (List.forall_mem_nil _) f.name f.isOptional
    cases fields with
    | nil =>
      refine ⟨[.property f.name f.isOptional type], .cons ⟨type, rfl, hsound⟩ .nil, n + 2,
        fun fuel hfuel rest => ?_⟩
      obtain ⟨fuel, rfl⟩ : ∃ f, fuel = f + 1 := ⟨fuel - 1, by omega⟩
      obtain ⟨fuel', rfl⟩ : ∃ f, fuel = f + 1 := ⟨fuel - 1, by omega⟩
      rw [List.map_singleton, join_singleton, hmember f (by simp),
        hn (fuel' + 1) (by omega) _ _ (closes_cons (by decide) rest) (readEnd_brace rest),
        readMembers, readSign_cons (by decide)]
      rfl
    | cons next fields =>
      obtain ⟨members, hmembers, m, hm⟩ := ih (fun x hx => h x (List.mem_cons_of_mem _ hx))
        (fun x hx => hrequired x (List.mem_cons_of_mem _ hx))
        fun x hx => hmember x (List.mem_cons_of_mem _ hx)
      refine ⟨.property f.name f.isOptional type :: members, .cons ⟨type, rfl, hsound⟩ hmembers,
        max n m + 1, fun fuel hfuel rest => ?_⟩
      obtain ⟨fuel, rfl⟩ : ∃ f, fuel = f + 1 := ⟨fuel - 1, by omega⟩
      rw [List.map_cons, List.map_cons, join_cons_cons, List.append_assoc, List.append_assoc,
        hmember f (by simp), List.singleton_append,
        hn fuel (by omega) _ _ (closes_cons (u := unit ',') (by decide) _) (readEnd_comma _)]
      have hothers := hm fuel (by omega) rest
      rw [List.map_cons] at hothers
      rw [hothers]
      rfl

/-- An object as JSON writes it, with a type for each value. -/
theorem Means.braces {fields : List (Field N)} (h : ∀ f ∈ fields, Means f.text f.accepts)
    (hrequired : ∀ f ∈ fields, f.isOptional = false) :
    Means (braces (fields.map (fun f => member f.name f.text))) (fun j => ∃ record,
      j = .obj record ∧ ∀ f ∈ fields, (∀ x, InsertionMap.get record f.name = some x → f.accepts x) ∧
        f.name ∈ keys record) := by
  obtain ⟨members, hmembers, n, hn⟩ := readMembers_members h hrequired
  have hread : ReadsAs (JsonText.braces (fields.map (fun f => member f.name f.text)))
      (.object members) := by
    refine ⟨⟨_, _, rfl, by decide, by decide, by decide, by decide⟩, n + 1,
      fun fuel hfuel rest _ => ?_⟩
    obtain ⟨fuel, rfl⟩ : ∃ f, fuel = f + 1 := ⟨fuel - 1, by omega⟩
    have hsplit : JsonText.braces (fields.map (fun f => member f.name f.text)) ++ rest =
        unit '\x7b' :: (join [unit ','] (fields.map (fun f => member f.name f.text)) ++
          unit '\x7d' :: rest) := by
      simp only [JsonText.braces, List.append_assoc, List.cons_append, List.nil_append]
    rw [hsplit, readOperand, skipSpace_cons (by decide)]
    simp only [show unit '\x7b' ≠ unit '"' by decide, if_false, if_true, hn fuel (by omega) rest]
    rfl
  refine hread.means ?_
  rintro j ⟨record, rfl, hfields⟩
  have hobject := @inhabits_object N fields members [] hmembers (by simp) record
    fun f hf => ⟨(hfields f hf).1, fun _ => (hfields f hf).2⟩
  rwa [List.append_nil] at hobject

end Objects

end Appspine.TypeText
