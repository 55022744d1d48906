import Appspine.JsonNumbers
import Appspine.Generators

/-!
# Reading an indented document back

`JSON.parse` passes over the white space between tokens, so the text that `JSON.stringify` prints
with an indent reads back as the value, just as the compact text does.
-/
namespace Appspine.Generators
open JsText Utf16 StableSort InsertionMap JsonText

variable {N : Type} [JsonNumber N]

section Space

/-- White space between tokens. -/
def Blank (ws : JsString) : Prop := ∀ u ∈ ws, isSpace u = true

lemma blank_lineBreak (depth : ℕ) : Blank (lineBreak depth) := by
  intro u hu
  rcases List.mem_cons.mp hu with rfl | hu
  · decide
  · rw [List.eq_of_mem_replicate hu]
    decide

lemma skipSpace_blank {ws : JsString} (h : Blank ws) (s : JsString) :
    skipSpace (ws ++ s) = skipSpace s := List.dropWhile_append_of_pos h

lemma skipSpace_space (s : JsString) : skipSpace (unit ' ' :: s) = skipSpace s :=
  List.dropWhile_cons_of_pos (by decide)

/-- Parsing starts behind the white space. -/
lemma parseValue_skip (fuel : ℕ) {s s' : JsString} (h : skipSpace s = skipSpace s') :
    parseValue (N := N) fuel s = parseValue fuel s' := by
  cases fuel with
  | zero => rfl
  | succ fuel => rw [parseValue, parseValue, h]

lemma parseItems_skip (fuel : ℕ) {s s' : JsString} (h : skipSpace s = skipSpace s') :
    parseItems (N := N) fuel s = parseItems fuel s' := by
  cases fuel with
  | zero => rfl
  | succ fuel => rw [parseItems, parseItems, parseValue_skip fuel h]

lemma parseMembers_skip (fuel : ℕ) {s s' : JsString} (h : skipSpace s = skipSpace s') :
    parseMembers (N := N) fuel s = parseMembers fuel s' := by
  cases fuel with
  | zero => rfl
  | succ fuel => rw [parseMembers, parseMembers, h]

lemma delimited_blank {ws : JsString} (h : Blank ws) {rest : JsString} (hrest : Delimited rest) :
    Delimited (ws ++ rest) := by
  cases ws with
  | nil => exact hrest
  | cons u us =>
    refine delimited_cons ?_ (us ++ rest)
    have hspace := h u List.mem_cons_self
    by_contra hnumber
    rw [Bool.not_eq_false] at hnumber
    simp [(isNumberUnit_head hnumber).1] at hspace

end Space

section Blocks

lemma indentedItems_eq (depth : ℕ) (items : List (Json N)) :
    indentedItems depth items = items.map (indented depth) := by
  induction items with
  | nil => rfl
  | cons j items ih => rw [indentedItems, ih, List.map_cons]

/-- A member on a line of its own. -/
def memberLine (depth : ℕ) (m : JsString × Json N) : JsString :=
  quote m.1 ++ js ": " ++ indented depth m.2

lemma indentedMembers_eq (depth : ℕ) (members : List (JsString × Json N)) :
    indentedMembers depth members = members.map (memberLine depth) := by
  induction members with
  | nil => rfl
  | cons m members ih =>
    rw [indentedMembers, ih, List.map_cons]
    rfl

/-- The value is read back from its indented text, whatever delimited text follows. -/
def ReadsIndented (j : Json N) : Prop :=
  ∀ depth fuel rest, (indented depth j).length < fuel → Delimited rest →
    parseValue fuel (indented depth j ++ rest) = some (rebuild j, rest)

lemma parseItems_indented {items : List (Json N)} (hne : items ≠ [])
    (ih : ∀ j ∈ items, ReadsIndented j) (depth : ℕ) {sep close : JsString} (hsep : Blank sep)
    (hclose : Blank close) (fuel : ℕ) (rest : JsString)
    (hfuel : (join (unit ',' :: sep) (items.map (indented depth))).length + 1 < fuel) :
    parseItems fuel (join (unit ',' :: sep) (items.map (indented depth)) ++
        (close ++ unit ']' :: rest)) = some (items.map rebuild, rest) := by
  induction items generalizing fuel with
  | nil => exact absurd rfl hne
  | cons j items ihItems =>
    obtain ⟨fuel, rfl⟩ : ∃ f, fuel = f + 1 := ⟨fuel - 1, by omega⟩
    have hj := ih j List.mem_cons_self
    cases items with
    | nil =>
      have hend : Delimited (close ++ unit ']' :: rest) :=
        delimited_blank hclose (delimited_cons (by decide) rest)
      rw [List.map_cons, List.map_nil, join_singleton] at hfuel ⊢
      rw [parseItems, hj depth fuel _ (by omega) hend]
      simp only [skipSpace_blank hclose, skipSpace_cons (show isSpace (unit ']') = false by decide),
        show unit ']' ≠ unit ',' by decide, if_false, if_true]
      rfl
    | cons j' items =>
      simp only [List.map_cons, join_cons_cons, List.append_assoc, List.cons_append,
        List.length_append, List.length_cons] at hfuel ⊢
      have hrec := ihItems (List.cons_ne_nil j' items)
        (fun i hi => ih i (List.mem_cons_of_mem j hi)) fuel (by simp only [List.map_cons]; omega)
      rw [parseItems, hj depth fuel _ (by omega) (delimited_cons (by decide) _)]
      simp only [skipSpace_cons (show isSpace (unit ',') = false by decide), if_true]
      rw [parseItems_skip fuel (skipSpace_blank hsep _)]
      simp only [List.map_cons] at hrec
      rw [hrec]
      rfl

lemma parseMembers_indented {members : List (JsString × Json N)} (hne : members ≠ [])
    (ih : ∀ m ∈ members, ReadsIndented m.2) (depth : ℕ) {sep close : JsString} (hsep : Blank sep)
    (hclose : Blank close) (fuel : ℕ) (rest : JsString)
    (hfuel : (join (unit ',' :: sep) (members.map (memberLine depth))).length + 1 < fuel) :
    parseMembers fuel (join (unit ',' :: sep) (members.map (memberLine depth)) ++
        (close ++ unit '}' :: rest)) = some (members.map (fun m => (m.1, rebuild m.2)), rest) := by
  induction members generalizing fuel with
  | nil => exact absurd rfl hne
  | cons m members ihMembers =>
    obtain ⟨fuel, rfl⟩ : ∃ f, fuel = f + 1 := ⟨fuel - 1, by omega⟩
    have hm := ih m List.mem_cons_self
    have hcolon : js ": " = [unit ':', unit ' '] := by decide
    have hkey : ∀ tail, Delimited tail → (indented depth m.2).length < fuel →
        ∃ us, memberLine depth m ++ tail = unit '"' :: us ∧
          scanString us = some (m.1, unit ':' :: unit ' ' :: (indented depth m.2 ++ tail)) ∧
          parseValue fuel (unit ' ' :: (indented depth m.2 ++ tail)) =
            some (rebuild m.2, tail) := by
      intro tail htail hlen
      obtain ⟨us, hus, hscan⟩ :=
        scanString_quote m.1 (unit ':' :: unit ' ' :: (indented depth m.2 ++ tail))
      refine ⟨us, by simp [memberLine, hcolon, ← hus], hscan, ?_⟩
      rw [parseValue_skip fuel (skipSpace_space _)]
      exact hm depth fuel tail hlen htail
    cases members with
    | nil =>
      have hend : Delimited (close ++ unit '}' :: rest) :=
        delimited_blank hclose (delimited_cons (by decide) rest)
      rw [List.map_cons, List.map_nil, join_singleton] at hfuel ⊢
      obtain ⟨us, hus, hscan, hval⟩ := hkey _ hend (by simp [memberLine] at hfuel; omega)
      rw [hus, parseMembers, skipSpace_cons (by decide)]
      simp only [if_true, hscan, skipSpace_cons (show isSpace (unit ':') = false by decide), hval,
        skipSpace_blank hclose, skipSpace_cons (show isSpace (unit '}') = false by decide),
        show unit '}' ≠ unit ',' by decide, if_false]
      rfl
    | cons m' members =>
      simp only [List.map_cons, join_cons_cons, List.append_assoc, List.cons_append,
        List.length_append, List.length_cons] at hfuel ⊢
      obtain ⟨us, hus, hscan, hval⟩ := hkey _ (delimited_cons (u := unit ',') (by decide) _)
        (by simp [memberLine] at hfuel; omega)
      have hrec := ihMembers (List.cons_ne_nil m' members)
        (fun i hi => ih i (List.mem_cons_of_mem m hi)) fuel (by simp only [List.map_cons]; omega)
      rw [hus, parseMembers, skipSpace_cons (by decide)]
      simp only [if_true, hscan, skipSpace_cons (show isSpace (unit ':') = false by decide), hval,
        skipSpace_cons (show isSpace (unit ',') = false by decide)]
      rw [parseMembers_skip fuel (skipSpace_blank hsep _)]
      simp only [List.map_cons] at hrec
      rw [hrec]
      rfl

end Blocks

section WellFormed

lemma wellFormed_lineBreak (depth : ℕ) : wellFormed (lineBreak depth) = true := by
  refine wellFormed_of_no_surrogate fun u hu => ?_
  rcases List.mem_cons.mp hu with rfl | hu
  · decide
  · rw [List.eq_of_mem_replicate hu]
    decide

lemma wellFormed_block {opening closing : CodeUnit} (hopening : isSurrogate opening = false)
    (hclosing : isSurrogate closing = false) (depth : ℕ) {texts : List JsString}
    (h : ∀ t ∈ texts, wellFormed t = true) :
    wellFormed (block opening closing depth texts) = true := by
  have hend : wellFormed [closing] = true := by simp [wellFormed, hclosing]
  have hsep : wellFormed (unit ',' :: lineBreak (depth + 1)) = true := by
    rw [wellFormed_cons_of_not_surrogate (by decide)]
    exact wellFormed_lineBreak (depth + 1)
  rw [block]
  split_ifs
  · rwa [wellFormed_cons_of_not_surrogate hopening]
  · rw [wellFormed_cons_of_not_surrogate hopening]
    exact wellFormed_append (wellFormed_append (wellFormed_append (wellFormed_lineBreak _)
      (wellFormed_join hsep h)) (wellFormed_lineBreak _)) hend

lemma wellFormed_indented (depth : ℕ) (j : Json N) : wellFormed (indented depth j) = true := by
  induction j generalizing depth with
  | null => exact wellFormed_stringify (Json.null : Json N)
  | bool b => exact wellFormed_stringify (Json.bool b : Json N)
  | num n => exact wellFormed_stringify (Json.num n)
  | str s => exact wellFormed_stringify (Json.str s : Json N)
  | arr items ih =>
    rw [indented, indentedItems_eq]
    refine wellFormed_block (by decide) (by decide) depth fun t ht => ?_
    obtain ⟨j, hj, rfl⟩ := List.mem_map.mp ht
    exact ih j hj (depth + 1)
  | obj members ih =>
    rw [indented, indentedMembers_eq]
    refine wellFormed_block (by decide) (by decide) depth fun t ht => ?_
    obtain ⟨m, hm, rfl⟩ := List.mem_map.mp ht
    exact wellFormed_append (wellFormed_append (wellFormed_quote m.1) (by decide))
      (ih m hm (depth + 1))

/-- A document has no lone surrogate, so its bytes give its text back. -/
lemma wellFormed_documentText (j : Json N) : wellFormed (documentText j) = true :=
  wellFormed_append (wellFormed_indented 0 j) (by decide)

end WellFormed

section RoundTrip

/-- The first character of an indented value is no white space and closes no bracket. -/
lemma indented_head (depth : ℕ) (j : Json N) : ∃ u us, indented depth j = u :: us ∧
    isSpace u = false ∧ u ≠ unit ']' := by
  cases j with
  | null => exact ⟨_, _, rfl, by decide, by decide⟩
  | bool b => cases b <;> exact ⟨_, _, rfl, by decide, by decide⟩
  | num n =>
    obtain ⟨u, us, hcons, hspace, hclose⟩ := stringify_head (Json.num n)
    exact ⟨u, us, hcons, hspace, hclose⟩
  | str s => exact ⟨unit '"', _, rfl, by decide, by decide⟩
  | arr items =>
    unfold indented block
    split_ifs
    · exact ⟨_, _, rfl, by decide, by decide⟩
    · exact ⟨_, _, rfl, by decide, by decide⟩
  | obj members =>
    unfold indented block
    split_ifs
    · exact ⟨_, _, rfl, by decide, by decide⟩
    · exact ⟨_, _, rfl, by decide, by decide⟩

lemma parseValue_block {texts : List JsString} (h : texts ≠ []) (opening closing : CodeUnit)
    (depth : ℕ) (rest : JsString) :
    block opening closing depth texts ++ rest =
      opening :: (lineBreak (depth + 1) ++ (join (unit ',' :: lineBreak (depth + 1)) texts ++
        (lineBreak depth ++ closing :: rest))) := by
  rw [block, if_neg h]
  simp

/-- Parsing reads an indented value back. -/
lemma parseValue_indented (j : Json N) : ReadsIndented j := by
  induction j with
  | null => exact fun depth fuel rest => parseValue_stringify Json.null fuel rest
  | bool b => exact fun depth fuel rest => parseValue_stringify (Json.bool b) fuel rest
  | num n => exact fun depth fuel rest => parseValue_stringify (Json.num n) fuel rest
  | str s => exact fun depth fuel rest => parseValue_stringify (Json.str s) fuel rest
  | arr items ih =>
    intro depth fuel rest hfuel _
    obtain ⟨fuel, rfl⟩ : ∃ f, fuel = f + 1 := ⟨fuel - 1, by omega⟩
    rw [indented, indentedItems_eq] at hfuel ⊢
    rw [rebuild, rebuildItems_eq]
    cases items with
    | nil =>
      rw [List.map_nil, block, if_pos rfl, List.cons_append, List.cons_append, List.nil_append,
        parseValue, skipSpace_cons (by decide)]
      simp only [show unit '[' ≠ unit '"' by decide, if_false, if_true,
        skipSpace_cons (show isSpace (unit ']') = false by decide)]
      rfl
    | cons j items =>
      have htexts : (j :: items).map (indented (depth + 1)) ≠ [] := List.cons_ne_nil _ _
      obtain ⟨u, us, hhead, hspace, hclose⟩ := indented_head (depth + 1) j
      obtain ⟨vs, hvs⟩ : ∃ vs, join (unit ',' :: lineBreak (depth + 1))
          ((j :: items).map (indented (depth + 1))) ++ (lineBreak depth ++ unit ']' :: rest) =
            u :: vs := by
        cases items <;> simp [join_cons_cons, hhead]
      have hitems := parseItems_indented (List.cons_ne_nil j items) ih (depth + 1)
        (blank_lineBreak (depth + 1)) (blank_lineBreak depth) fuel rest (by
          rw [block, if_neg htexts] at hfuel
          simp only [List.length_cons, List.length_append] at hfuel
          omega)
      rw [parseValue_block htexts, parseValue, skipSpace_cons (by decide)]
      rw [hvs] at hitems ⊢
      simp only [show unit '[' ≠ unit '"' by decide, if_false, if_true,
        skipSpace_blank (blank_lineBreak (depth + 1)), skipSpace_cons hspace, hclose, hitems]
      rfl
  | obj members ih =>
    intro depth fuel rest hfuel _
    obtain ⟨fuel, rfl⟩ : ∃ f, fuel = f + 1 := ⟨fuel - 1, by omega⟩
    rw [indented, indentedMembers_eq] at hfuel ⊢
    rw [rebuild, rebuildMembers_eq]
    cases members with
    | nil =>
      rw [List.map_nil, block, if_pos rfl, List.cons_append, List.cons_append, List.nil_append,
        parseValue, skipSpace_cons (by decide)]
      simp only [show unit '\x7b' ≠ unit '"' by decide, show unit '\x7b' ≠ unit '[' by decide,
        if_false, if_true, skipSpace_cons (show isSpace (unit '\x7d') = false by decide)]
      rfl
    | cons m members =>
      have htexts : (m :: members).map (memberLine (depth + 1)) ≠ [] := List.cons_ne_nil _ _
      obtain ⟨vs, hvs⟩ : ∃ vs, join (unit ',' :: lineBreak (depth + 1))
          ((m :: members).map (memberLine (depth + 1))) ++ (lineBreak depth ++ unit '\x7d' :: rest) =
            unit '"' :: vs := by
        cases members <;> simp [join_cons_cons, memberLine, quote]
      have hmembers := parseMembers_indented (List.cons_ne_nil m members) ih (depth + 1)
        (blank_lineBreak (depth + 1)) (blank_lineBreak depth) fuel rest (by
          rw [block, if_neg htexts] at hfuel
          simp only [List.length_cons, List.length_append] at hfuel
          omega)
      rw [parseValue_block htexts, parseValue, skipSpace_cons (by decide)]
      rw [hvs] at hmembers ⊢
      simp only [show unit '\x7b' ≠ unit '"' by decide, show unit '\x7b' ≠ unit '[' by decide,
        if_false, if_true, skipSpace_blank (blank_lineBreak (depth + 1)),
        skipSpace_cons (show isSpace (unit '"') = false by decide),
        show unit '"' ≠ unit '\x7d' by decide, hmembers]
      rfl

/-- A document reads back as its value, with the objects built anew. -/
theorem parse_documentText (j : Json N) : parse (documentText j) = some (rebuild j) := by
  have hnewline : js "\n" = [unit '\n'] := by decide
  have hdelimited : Delimited (js "\n") := by
    rw [hnewline]
    exact delimited_cons (by decide) []
  have h := parseValue_indented j 0 ((documentText j).length + 1) (js "\n") (by
    rw [documentText, List.length_append]
    omega) hdelimited
  rw [parse, documentText] at *
  rw [h, hnewline]
  rfl

end RoundTrip

end Appspine.Generators
