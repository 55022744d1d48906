import Appspine.MigrationStrip

/-!
# What the scan finds in a migration

The stripped text of a script is a rendering of its tokens, with white space in between. At each
statement the pattern finds what the statement does, or finds nothing up to the next one.
-/
namespace Appspine.MigrationStatements
open JsText InsertionMap SqlScript MigrationScan MigrationStrip

section Matches

def Spaces (text : JsString) : Prop := ∀ u ∈ text, isWhiteSpace u = true

/-- The text does not start with white space. -/
def StartsFirm (text : JsString) : Prop := ∀ u ∈ text.head?, isWhiteSpace u = false

variable {spaces rest text : JsString}

theorem skipSpaces_append (hspaces : Spaces spaces) (hrest : StartsFirm rest) :
    skipSpaces (spaces ++ rest) = rest := by
  rw [skipSpaces, List.dropWhile_append_of_pos hspaces]
  cases rest with
  | nil => rfl
  | cons u rest => exact List.dropWhile_cons_of_neg (by simp [hrest u rfl])

theorem matchSpaces_append (hne : spaces ≠ []) (hspaces : Spaces spaces)
    (hrest : StartsFirm rest) : matchSpaces (spaces ++ rest) = some rest := by
  obtain ⟨u, spaces, rfl⟩ := List.exists_cons_of_ne_nil hne
  rw [List.cons_append, matchSpaces, if_pos (hspaces u (by simp)),
    skipSpaces_append (fun v hv => hspaces v (by simp [hv])) hrest]

theorem matchWord_append {word spelling : JsString} (h : asciiLower spelling = word) :
    matchWord word (spelling ++ rest) = some rest := by
  have hlength : word.length = spelling.length := by rw [← h, asciiLower, List.length_map]
  rw [matchWord, hlength, List.take_left, List.drop_left, if_pos h]

theorem matchUntil_append {stop : CodeUnit} {taken : JsString} (hne : taken ≠ [])
    (hstop : stop ∉ taken) : matchUntil stop (taken ++ stop :: rest) = some (taken, rest) := by
  have hall : ∀ u ∈ taken, decide (u ≠ stop) = true := fun u hu =>
    decide_eq_true fun heq => hstop (heq ▸ hu)
  have htake : (taken ++ stop :: rest).takeWhile (· ≠ stop) = taken := by
    rw [List.takeWhile_append_of_pos hall, List.takeWhile_cons_of_neg (by simp), List.append_nil]
  have hdrop : (taken ++ stop :: rest).dropWhile (· ≠ stop) = stop :: rest := by
    rw [List.dropWhile_append_of_pos hall, List.dropWhile_cons_of_neg (by simp)]
  rw [matchUntil, htake, if_neg hne, hdrop, matchUnit, if_pos rfl]
  rfl

theorem matchQuoted_append {name : JsString} (hne : name ≠ [])
    (hquote : MigrationScan.doubleQuote ∉ name) :
    matchQuoted (MigrationScan.doubleQuote :: (name ++ MigrationScan.doubleQuote :: rest)) =
      some (name, rest) := by
  rw [matchQuoted, matchUnit, if_pos rfl, Option.bind_some, matchUntil_append hne hquote]

theorem matchQuoted_of_ne {u : CodeUnit} (hu : u ≠ MigrationScan.doubleQuote) :
    matchQuoted (u :: text) = none := by
  rw [matchQuoted, matchUnit, if_neg hu, Option.bind_none]

theorem matchAll_skip (skipped rest : JsString) :
    matchAll skipped.length (skipped ++ rest) = matchAll 0 rest := by
  induction skipped with
  | nil => rfl
  | cons u skipped ih => rw [List.length_cons, List.cons_append, matchAll, ih]

theorem matchAll_of_match {found : Found} (hne : text ≠ [])
    (h : matchStatement (text ++ rest) = some (found, rest)) :
    matchAll 0 (text ++ rest) = found :: matchAll 0 rest := by
  obtain ⟨u, text, rfl⟩ := List.exists_cons_of_ne_nil hne
  rw [List.cons_append] at h ⊢
  rw [matchAll, h]
  dsimp only
  rw [List.length_append, Nat.add_sub_cancel, matchAll_skip]

theorem matchAll_of_none {u : CodeUnit} (h : matchStatement (u :: text) = none) :
    matchAll 0 (u :: text) = matchAll 0 text := by
  rw [matchAll, h]

/-- The pattern starts with a letter of its own, and goes on with the `r` of both its words. -/
theorem matchStatement_none {u : CodeUnit}
    (h : asciiLowerUnit u ≠ unit 'c' ∧ asciiLowerUnit u ≠ unit 'd' ∨
      ∀ v ∈ text.head?, asciiLowerUnit v ≠ unit 'r') : matchStatement (u :: text) = none := by
  have hword : ∀ first : CodeUnit, ∀ word : JsString,
      first = unit 'c' ∨ first = unit 'd' →
      matchWord (first :: unit 'r' :: word) (u :: text) = none := by
    intro first word hfirst
    rw [matchWord, if_neg]
    intro hlower
    rw [List.length_cons, List.length_cons, List.take_succ_cons, asciiLower, List.map_cons] at hlower
    obtain ⟨hu, hlower⟩ := List.cons.inj hlower
    cases text with
    | nil => cases hlower
    | cons v text =>
      rw [List.take_succ_cons, List.map_cons] at hlower
      obtain ⟨hv, -⟩ := List.cons.inj hlower
      rcases h with h | h
      · exact hfirst.elim (fun hc => h.1 (hu.trans hc)) fun hd => h.2 (hu.trans hd)
      · exact h v rfl hv
  have hcreate : matchCreate (u :: text) = none := by
    have hnone : matchWord (js "create") (u :: text) = none := hword (unit 'c') (js "eate") (.inl rfl)
    rw [matchCreate, hnone]
    rfl
  have hdrop : matchDrop (u :: text) = none := by
    have hnone : matchWord (js "drop") (u :: text) = none := hword (unit 'd') (js "op") (.inr rfl)
    rw [matchDrop, hnone]
    rfl
  rw [matchStatement, hcreate, hdrop]
  rfl

/-- Signs that are no letters of the pattern are passed over. -/
theorem passes_signs {signs : JsString}
    (h : ∀ u ∈ signs, asciiLowerUnit u ≠ unit 'c' ∧ asciiLowerUnit u ≠ unit 'd') :
    Passes (matchAll 0) signs [] := by
  intro rest
  induction signs with
  | nil => rfl
  | cons u signs ih =>
    rw [List.cons_append, matchAll_of_none (matchStatement_none (.inl (h u (by simp)))),
      ih fun v hv => h v (by simp [hv])]

theorem passes_spaces (h : Spaces spaces) : Passes (matchAll 0) spaces [] := by
  refine passes_signs fun u hu => ?_
  have hspace := h u hu
  constructor <;>
  · intro hlower
    simp only [asciiLowerUnit] at hlower
    split_ifs at hlower with hletter
    · have hval : u.val ≠ 65 + 0 := by
        rintro hval
        simp only [isWhiteSpace, decide_eq_true_eq] at hspace
        omega
      simp only [isWhiteSpace, decide_eq_true_eq] at hspace
      have hlow : 65 ≤ u.val := hletter.1
      have hhigh : u.val ≤ 90 := hletter.2
      omega
    · rw [hlower] at hspace
      exact absurd hspace (by decide)

/-- A word in which no match starts. -/
def passedOver : JsString → Bool
  | [] => true
  | [u] => decide (u ≠ unit 'c' ∧ u ≠ unit 'd')
  | u :: v :: word =>
    (decide (u ≠ unit 'c' ∧ u ≠ unit 'd') || decide (v ≠ unit 'r')) && passedOver (v :: word)

theorem passes_word {word spelling : JsString} (hword : passedOver word = true)
    (h : asciiLower spelling = word) : Passes (matchAll 0) spelling [] := by
  intro rest
  induction spelling generalizing word with
  | nil => rfl
  | cons u spelling ih =>
    rw [asciiLower, List.map_cons] at h
    subst h
    rw [List.cons_append]
    cases spelling with
    | nil =>
      rw [List.map_nil, passedOver, decide_eq_true_eq] at hword
      exact matchAll_of_none (matchStatement_none (.inl hword))
    | cons v spelling =>
      rw [List.map_cons, passedOver, Bool.and_eq_true, Bool.or_eq_true, decide_eq_true_eq,
        decide_eq_true_eq] at hword
      rw [matchAll_of_none (matchStatement_none ?_), ih hword.2 rfl]
      exact hword.1.imp_right fun hv w hw => by
        obtain rfl : v = w := by simpa using hw
        exact hv

end Matches

section Renderings

/-- Tokens between which the patterns want white space. -/
def parted : Token → Token → Bool
  | .word _, .word _ => true
  | .word keyword, .name _ => decide (keyword ≠ js "concurrently")
  | .name _, .word keyword => decide (keyword = js "on")
  | _, _ => false

/-- `parted` of keywords that may be spelled in any case. -/
def partedAlike : Token → Token → Bool
  | .word spelling, .name _ => decide (asciiLower spelling ≠ js "concurrently")
  | .name _, .word spelling => decide (asciiLower spelling = js "on")
  | _, _ => false

def Spelled : Token → JsString → Prop
  | .word keyword, text => asciiLower text = keyword
  | .name name, text =>
    text = MigrationScan.doubleQuote :: (name ++ [MigrationScan.doubleQuote])
  | .punct u, text => text = [u]

/-- A text of the tokens, each with white space after it. -/
def Renders : List Token → JsString → Prop
  | [], text => text = []
  | token :: tokens, text => ∃ spelling spaces rest, text = spelling ++ (spaces ++ rest) ∧
      PlainToken token ∧ Spelled token spelling ∧ Spaces spaces ∧
      (∀ next ∈ tokens.head?, parted token next = true → spaces ≠ []) ∧ Renders tokens rest

variable {tokens : List Token} {text : JsString}

/-- The sign that the token starts with. -/
def Opens : Token → CodeUnit → Prop
  | .word _, u => 97 ≤ (asciiLowerUnit u).val ∧ (asciiLowerUnit u).val ≤ 122
  | .name _, u => u = MigrationScan.doubleQuote
  | .punct v, u => u = v

theorem Spelled.exists_cons {token : Token} {spelling : JsString} (h : Spelled token spelling)
    (hplain : PlainToken token) : ∃ u rest, spelling = u :: rest ∧ Opens token u := by
  cases token with
  | word keyword =>
    obtain rfl : asciiLower spelling = keyword := h
    cases spelling with
    | nil => exact absurd rfl hplain.1
    | cons u rest => exact ⟨u, rest, rfl, hplain.2 _ (by simp [asciiLower])⟩
  | name name => exact ⟨_, _, h, rfl⟩
  | punct v => exact ⟨_, _, h, rfl⟩

theorem Renders.exists_head (h : Renders tokens text) {u : CodeUnit} (hu : u ∈ text.head?) :
    ∃ token ∈ tokens.head?, PlainToken token ∧ Opens token u := by
  cases tokens with
  | nil =>
    obtain rfl : text = [] := h
    cases hu
  | cons token tokens =>
    obtain ⟨spelling, spaces, rest, rfl, hplain, hspelled, -⟩ := h
    obtain ⟨v, spelling', rfl, hopens⟩ := hspelled.exists_cons hplain
    obtain rfl : v = u := by simpa using hu
    exact ⟨token, rfl, hplain, hopens⟩

theorem sign_val {u : CodeUnit} (h : u ∈ js "(),.;") : u.val < 65 ∧ isWhiteSpace u = false := by
  have hsigns : js "(),.;" = [unit '(', unit ')', unit ',', unit '.', unit ';'] := rfl
  rw [hsigns] at h
  simp only [List.mem_cons, List.not_mem_nil, or_false] at h
  rcases h with rfl | rfl | rfl | rfl | rfl <;> decide

theorem isWhiteSpace_letter {u : CodeUnit}
    (h : 97 ≤ (asciiLowerUnit u).val ∧ (asciiLowerUnit u).val ≤ 122) :
    isWhiteSpace u = false ∧ u ∉ js "(),.;" ∧ u ≠ MigrationScan.doubleQuote := by
  have hletter : 65 ≤ u.val ∧ u.val ≤ 122 := by
    simp only [asciiLowerUnit] at h
    split_ifs at h with hupper
    · have hlow : 65 ≤ u.val := hupper.1
      have hhigh : u.val ≤ 90 := hupper.2
      omega
    · omega
  refine ⟨?_, ?_, ?_⟩
  · by_contra hspace
    simp only [Bool.not_eq_false, isWhiteSpace, decide_eq_true_eq] at hspace
    omega
  · intro hmem
    have hlt := (sign_val hmem).1
    omega
  · rintro rfl
    exact absurd hletter (by decide)

theorem Renders.startsFirm (h : Renders tokens text) : StartsFirm text := by
  intro u hu
  obtain ⟨token, -, hplain, hopens⟩ := h.exists_head hu
  cases token with
  | word keyword => exact (isWhiteSpace_letter hopens).1
  | name name =>
    obtain rfl : u = MigrationScan.doubleQuote := hopens
    decide
  | punct v =>
    obtain rfl : u = v := hopens
    exact (sign_val hplain).2

theorem Renders.matchUnit_none {v : CodeUnit} (h : Renders tokens text) (hv : v ∈ js "(),.;")
    (hne : tokens.head? ≠ some (.punct v)) : matchUnit v text = none := by
  cases text with
  | nil => rfl
  | cons u text =>
    rw [matchUnit, if_neg]
    rintro rfl
    obtain ⟨token, hhead, -, hopens⟩ := h.exists_head rfl
    cases token with
    | word keyword => exact (isWhiteSpace_letter hopens).2.1 hv
    | name name =>
      obtain rfl : u = MigrationScan.doubleQuote := hopens
      exact absurd hv (by decide)
    | punct w =>
      obtain rfl : u = w := hopens
      exact hne hhead

theorem Renders.matchQuoted_none (h : Renders tokens text)
    (hne : ∀ name, tokens.head? ≠ some (.name name)) : matchQuoted text = none := by
  cases text with
  | nil => rfl
  | cons u text =>
    refine matchQuoted_of_ne ?_
    rintro rfl
    obtain ⟨token, hhead, hplain, hopens⟩ := h.exists_head rfl
    cases token with
    | word keyword => exact (isWhiteSpace_letter hopens).2.2 rfl
    | name name => exact hne name hhead
    | punct w =>
      obtain rfl : MigrationScan.doubleQuote = w := hopens
      have hsign : MigrationScan.doubleQuote ∈ js "(),.;" := hplain
      exact absurd hsign (by decide)

theorem spelled_of_spells {token canonical : Token} (h : token.Spells canonical)
    (hplain : PlainToken canonical) : Spelled canonical token.text := by
  cases token with
  | word spelling =>
    cases canonical with
    | word keyword => exact h
    | name name => cases h
    | punct u => cases h
  | name name =>
    obtain rfl : Token.name name = canonical := by cases canonical <;> exact h
    exact text_of_plainName hplain.doubleQuote
  | punct u =>
    obtain rfl : Token.punct u = canonical := by cases canonical <;> exact h
    rfl

theorem parted_of_spells {token canonical next next' : Token} (h : token.Spells canonical)
    (hnext : next.Spells next') (hparted : parted canonical next' = true) :
    bothWords token next = true ∨ partedAlike token next = true := by
  cases canonical with
  | word keyword =>
    obtain ⟨spelling, rfl, hspelling⟩ : ∃ spelling, token = .word spelling ∧
        asciiLower spelling = keyword := by
      cases token with
      | word spelling => exact ⟨spelling, rfl, h⟩
      | name name => cases h
      | punct u => cases h
    cases next' with
    | word keyword' =>
      cases next with
      | word spelling' => exact .inl rfl
      | name name => cases hnext
      | punct u => cases hnext
    | name name =>
      obtain rfl : next = Token.name name := by cases next <;> exact hnext
      refine .inr ?_
      rw [parted, ← hspelling] at hparted
      exact hparted
    | punct u => cases hparted
  | name name =>
    obtain rfl : token = Token.name name := by cases token <;> exact h
    cases next' with
    | word keyword =>
      cases next with
      | word spelling =>
        refine .inr ?_
        rw [parted, ← show asciiLower spelling = keyword from hnext] at hparted
        exact hparted
      | name name => cases hnext
      | punct u => cases hnext
    | name name => cases hparted
    | punct u => cases hparted
  | punct u => cases hparted

theorem spaces_cleanSpaces {trivia : List Trivia} (h : ∀ t ∈ trivia, t.Valid) :
    Spaces (cleanSpaces trivia) := by
  intro u hu
  obtain ⟨t, ht, hmem⟩ := List.mem_flatMap.mp hu
  exact isWhiteSpace_cleanTrivia (h t ht) u hmem

theorem cleanSpaces_ne_nil {trivia : List Trivia} (h : trivia ≠ []) : cleanSpaces trivia ≠ [] := by
  obtain ⟨t, trivia, rfl⟩ := List.exists_cons_of_ne_nil h
  rw [cleanSpaces, List.flatMap_cons]
  cases t <;> simp [cleanTrivia]

/-- What is left of a script is a rendering of its tokens. -/
theorem renders_items {items : List (Token × List Trivia)}
    (htokens : List.Forall₂ Token.Spells (items.map Prod.fst) tokens)
    (hplain : ∀ token ∈ tokens, PlainToken token)
    (hvalid : ∀ item ∈ items, ∀ trivia ∈ item.2, trivia.Valid)
    (hwords : Apart bothWords items) (hspaced : Apart partedAlike items) :
    Renders tokens (items.flatMap cleanItem) := by
  induction items generalizing tokens with
  | nil =>
    cases htokens
    rfl
  | cons item items ih =>
    rw [List.map_cons] at htokens
    cases htokens with
    | @cons _ token _ tokens hspells htokens =>
    have htoken : PlainToken token := hplain token (by simp)
    refine ⟨item.1.text, cleanSpaces item.2, items.flatMap cleanItem, ?_, htoken,
      spelled_of_spells hspells htoken, spaces_cleanSpaces (hvalid item (by simp)), ?_,
      ih htokens (fun t ht => hplain t (by simp [ht])) (fun i hi => hvalid i (by simp [hi]))
        hwords.tail hspaced.tail⟩
    · rw [List.flatMap_cons, cleanItem, List.append_assoc]
    · intro next hnext hparted
      cases items with
      | nil =>
        cases htokens
        cases hnext
      | cons item' items =>
        rw [List.map_cons] at htokens
        cases htokens with
        | @cons _ token' _ _ hspells' _ =>
        obtain rfl : token' = next := by simpa using hnext
        refine cleanSpaces_ne_nil ?_
        rcases parted_of_spells hspells hspells' hparted with h | h
        · exact (List.isChain_cons_cons.mp hwords).1 h
        · exact (List.isChain_cons_cons.mp hspaced).1 h

end Renderings

section Unread

variable {text rest found : JsString}

/-- What the patterns take before the quote is all of it before the quote. -/
theorem matchWord_before {word : JsString} (hword : ∀ u ∈ word, 97 ≤ u.val)
    (h : matchWord word (text ++ MigrationScan.doubleQuote :: rest) = some found) :
    ∃ text', text' <:+ text ∧ found = text' ++ MigrationScan.doubleQuote :: rest := by
  rw [matchWord] at h
  split_ifs at h with hlower
  obtain rfl := Option.some.inj h
  by_cases hlength : word.length ≤ text.length
  · exact ⟨text.drop word.length, List.drop_suffix _ _, List.drop_append_of_le_length hlength⟩
  · have hquote : MigrationScan.doubleQuote ∈
        (text ++ MigrationScan.doubleQuote :: rest).take word.length := by
      rw [List.take_append, List.mem_append]
      right
      obtain ⟨n, hn⟩ : ∃ n, word.length - text.length = n + 1 :=
        ⟨word.length - text.length - 1, by omega⟩
      rw [hn, List.take_succ_cons]
      exact List.mem_cons_self
    have hmem : asciiLowerUnit MigrationScan.doubleQuote ∈ word :=
      hlower ▸ List.mem_map_of_mem hquote
    exact absurd (hword _ hmem) (by decide)

theorem matchSpaces_before
    (h : matchSpaces (text ++ MigrationScan.doubleQuote :: rest) = some found) :
    ∃ text', text' <:+ text ∧ found = text' ++ MigrationScan.doubleQuote :: rest ∧
      (text' = [] → ∃ u ∈ text.getLast?, isWhiteSpace u = true) := by
  cases text with
  | nil =>
    rw [List.nil_append, matchSpaces, if_neg (by decide)] at h
    cases h
  | cons u text =>
    rw [List.cons_append, matchSpaces] at h
    split_ifs at h with hu
    obtain rfl := Option.some.inj h
    have hquote : (MigrationScan.doubleQuote :: rest).dropWhile isWhiteSpace =
        MigrationScan.doubleQuote :: rest := List.dropWhile_cons_of_neg (by decide)
    refine ⟨text.dropWhile isWhiteSpace, (List.dropWhile_suffix _).trans (List.suffix_cons _ _),
      ?_, fun hall => ?_⟩
    · rw [skipSpaces, List.dropWhile_append, hquote]
      split_ifs with hempty
      · rw [List.isEmpty_iff.mp hempty, List.nil_append]
      · rfl
    · have hspaces := List.dropWhile_eq_nil_iff.mp hall
      obtain ⟨init, last, hlast⟩ :=
        (List.eq_nil_or_concat (u :: text)).resolve_left (List.cons_ne_nil _ _)
      rw [List.concat_eq_append] at hlast
      refine ⟨last, by rw [hlast, List.getLast?_concat]; rfl, ?_⟩
      have hmem : last ∈ u :: text := by rw [hlast]; simp
      rcases List.mem_cons.mp hmem with rfl | hmem
      · exact hu
      · exact hspaces _ hmem

theorem getLast?_of_suffix {text' : JsString} (h : text' <:+ text) {u : CodeUnit}
    (hu : u ∈ text'.getLast?) : u ∈ text.getLast? := by
  obtain ⟨front, rfl⟩ := h
  rw [List.getLast?_append, hu]
  rfl

theorem tableRefs_eq_nil (h : matchQuoted text = none) : tableRefs text = [] := by
  rw [tableRefs, h]
  rfl

/-- A name whose end is no white space gives no pattern its space before a quote. -/
theorem matchQuoted_before {text text' : JsString} (hquote : MigrationScan.doubleQuote ∉ text)
    (hlast : ∀ u ∈ text.getLast?, isWhiteSpace u = false) (hsuffix : text' <:+ text)
    (h : matchSpaces (text' ++ MigrationScan.doubleQuote :: rest) = some found) :
    (∃ text'', text'' <:+ text ∧ found = text'' ++ MigrationScan.doubleQuote :: rest) ∧
      matchQuoted found = none := by
  obtain ⟨text'', hsuffix', rfl, hspace⟩ := matchSpaces_before h
  refine ⟨⟨text'', hsuffix'.trans hsuffix, rfl⟩, ?_⟩
  cases text'' with
  | nil =>
    obtain ⟨u, hu, hwhite⟩ := hspace rfl
    rw [hlast u (getLast?_of_suffix hsuffix hu)] at hwhite
    cases hwhite
  | cons u text'' =>
    refine matchQuoted_of_ne ?_
    rintro rfl
    exact hquote ((hsuffix'.trans hsuffix).subset List.mem_cons_self)

theorem matchStatement_before (hquote : MigrationScan.doubleQuote ∉ text)
    (hlast : ∀ u ∈ text.getLast?, isWhiteSpace u = false) :
    matchStatement (text ++ MigrationScan.doubleQuote :: rest) = none := by
  have hlow : ∀ {word : JsString}, word.all (fun u => decide (97 ≤ u.val)) = true →
      ∀ u ∈ word, 97 ≤ u.val := fun h u hu => of_decide_eq_true (List.all_eq_true.mp h u hu)
  have hcreate : matchCreate (text ++ MigrationScan.doubleQuote :: rest) = none := by
    by_contra hsome
    obtain ⟨found, hfound⟩ := Option.ne_none_iff_exists'.mp hsome
    simp only [matchCreate, Option.bind_eq_bind, Option.bind_eq_some_iff] at hfound
    obtain ⟨_, h1, _, h2, _, h3, _, h4, _, h5, -⟩ := hfound
    obtain ⟨text', hsuffix, rfl⟩ := matchWord_before (hlow (by decide)) h1
    obtain ⟨⟨text', hsuffix, rfl⟩, -⟩ := matchQuoted_before hquote hlast hsuffix h2
    obtain ⟨text'', hsuffix', rfl⟩ := matchWord_before (hlow (by decide)) h3
    obtain ⟨-, hnone⟩ := matchQuoted_before hquote hlast (hsuffix'.trans hsuffix) h4
    rw [hnone] at h5
    cases h5
  have hdrop : matchDrop (text ++ MigrationScan.doubleQuote :: rest) = none := by
    by_contra hsome
    obtain ⟨found, hfound⟩ := Option.ne_none_iff_exists'.mp hsome
    simp only [matchDrop, Option.bind_eq_bind, Option.bind_eq_some_iff] at hfound
    obtain ⟨_, h1, _, h2, _, h3, _, h4, hfind⟩ := hfound
    obtain ⟨text', hsuffix, rfl⟩ := matchWord_before (hlow (by decide)) h1
    obtain ⟨⟨text', hsuffix, rfl⟩, -⟩ := matchQuoted_before hquote hlast hsuffix h2
    obtain ⟨text'', hsuffix', rfl⟩ := matchWord_before (hlow (by decide)) h3
    obtain ⟨⟨text₂, hsuffix₂, rfl⟩, hnone⟩ :=
      matchQuoted_before hquote hlast (hsuffix'.trans hsuffix) h4
    obtain ⟨start, hstart, hrefs⟩ := List.exists_of_findSome?_eq_some hfind
    have hstartNone : matchQuoted start = none := by
      rcases List.mem_append.mp hstart with hif | hplain
      · rw [Option.mem_toList] at hif
        simp only [matchIfExists, Option.bind_eq_bind, Option.bind_eq_some_iff] at hif
        obtain ⟨_, h5, _, h6, _, h7, h8⟩ := hif
        obtain ⟨text₃, hsuffix₃, rfl⟩ := matchWord_before (hlow (by decide)) h5
        obtain ⟨⟨text₄, hsuffix₄, rfl⟩, -⟩ :=
          matchQuoted_before hquote hlast (hsuffix₃.trans hsuffix₂) h6
        obtain ⟨text₅, hsuffix₅, rfl⟩ := matchWord_before (hlow (by decide)) h7
        exact (matchQuoted_before hquote hlast (hsuffix₅.trans hsuffix₄) h8).2
      · rw [List.mem_singleton.mp hplain]
        exact hnone
    rw [tableRefs_eq_nil hstartNone] at hrefs
    cases hrefs
  rw [matchStatement, hcreate, hdrop]
  rfl

theorem passes_quoted {name : JsString} (hquote : MigrationScan.doubleQuote ∉ name)
    (hlast : ∀ u ∈ name.getLast?, isWhiteSpace u = false) :
    Passes (matchAll 0)
      (MigrationScan.doubleQuote :: (name ++ [MigrationScan.doubleQuote])) [] := by
  have hname : ∀ rest, matchAll 0 (name ++ MigrationScan.doubleQuote :: rest) =
      matchAll 0 (MigrationScan.doubleQuote :: rest) := by
    intro rest
    induction name with
    | nil => rfl
    | cons u name ih =>
      have hnone : matchStatement (u :: (name ++ MigrationScan.doubleQuote :: rest)) = none :=
        matchStatement_before hquote hlast
      rw [List.cons_append, matchAll_of_none hnone, ih]
      · exact fun hmem => hquote (List.mem_cons_of_mem _ hmem)
      · exact fun v hv => hlast v (getLast?_of_suffix (List.suffix_cons u name) hv)
  have hsign : Passes (matchAll 0) [MigrationScan.doubleQuote] [] := by
    refine passes_signs fun u hu => ?_
    rw [List.mem_singleton.mp hu]
    decide
  intro rest
  have hopen := hsign (name ++ MigrationScan.doubleQuote :: rest)
  rw [List.singleton_append] at hopen
  rw [List.cons_append, List.append_assoc, List.singleton_append, hopen, List.nil_append, hname,
    ← List.singleton_append, hsign]

/-- A token in which, and after which, no pattern starts. -/
def Inert : Token → Prop
  | .word keyword => passedOver keyword = true
  | .name name => ∀ u ∈ name.getLast?, isWhiteSpace u = false
  | .punct _ => True

theorem Renders.skip {token : Token} {tokens : List Token}
    (h : Renders (token :: tokens) text) (hinert : Inert token) :
    ∃ text', Renders tokens text' ∧ matchAll 0 text = matchAll 0 text' := by
  obtain ⟨spelling, spaces, rest, rfl, hplain, hspelled, hspaces, -, hrest⟩ := h
  refine ⟨rest, hrest, ?_⟩
  have hpasses : Passes (matchAll 0) spelling [] := by
    cases token with
    | word keyword => exact passes_word hinert hspelled
    | name name =>
      obtain rfl : spelling = MigrationScan.doubleQuote ::
        (name ++ [MigrationScan.doubleQuote]) := hspelled
      exact passes_quoted hplain.doubleQuote hinert
    | punct u =>
      obtain rfl : spelling = [u] := hspelled
      refine passes_signs fun v hv => ?_
      rw [List.mem_singleton.mp hv]
      have hsigns : js "(),.;" = [unit '(', unit ')', unit ',', unit '.', unit ';'] := rfl
      have hmem : u ∈ js "(),.;" := hplain
      rw [hsigns] at hmem
      simp only [List.mem_cons, List.not_mem_nil, or_false] at hmem
      rcases hmem with rfl | rfl | rfl | rfl | rfl <;> decide
  rw [hpasses, passes_spaces hspaces]
  rfl

theorem Renders.skipAll {inert tokens : List Token} (h : Renders (inert ++ tokens) text)
    (hinert : ∀ token ∈ inert, Inert token) :
    ∃ text', Renders tokens text' ∧ matchAll 0 text = matchAll 0 text' := by
  induction inert generalizing text with
  | nil => exact ⟨text, h, rfl⟩
  | cons token inert ih =>
    obtain ⟨text', h', hsame⟩ := h.skip (hinert token (by simp))
    obtain ⟨text'', h'', hsame'⟩ := ih h' fun t ht => hinert t (by simp [ht])
    exact ⟨text'', h'', hsame.trans hsame'⟩

end Unread

section Reading

variable {tokens : List Token} {text rest : JsString}

theorem matchQuoted_name {name : JsString} (hne : name ≠ [])
    (hquote : MigrationScan.doubleQuote ∉ name) :
    matchQuoted (MigrationScan.doubleQuote :: (name ++ [MigrationScan.doubleQuote]) ++ rest) =
      some (name, rest) := by
  rw [List.cons_append, List.append_assoc, List.singleton_append]
  exact matchQuoted_append hne hquote

/-- A qualified name as the first way of the pattern that goes through. -/
theorem exists_tableRefs {name : QualifiedName} (h : Renders (name.tokens ++ tokens) text)
    (hname : name.name ≠ []) (hschema : ∀ schemaName ∈ name.schemaName, schemaName ≠ [])
    (hhead : tokens.head? ≠ some (.punct (unit '.'))) :
    ∃ front spaces text', front ≠ [] ∧ text = front ++ (spaces ++ text') ∧ Spaces spaces ∧
      Renders tokens text' ∧ (tableRefs text).head? = some (name.name, spaces ++ text') := by
  obtain ⟨schemaName, name⟩ := name
  cases schemaName with
  | none =>
    obtain ⟨_, spaces, text', rfl, hplain, rfl, hspaces, -, h⟩ := h
    refine ⟨_, spaces, text', List.cons_ne_nil _ _, rfl, hspaces, h, ?_⟩
    rw [tableRefs, matchQuoted_name hname hplain.doubleQuote, Option.bind_some,
      skipSpaces_append hspaces h.startsFirm, h.matchUnit_none (by decide) hhead]
    rfl
  | some schemaName =>
    obtain ⟨_, spaces₁, _, rfl, hplain₁, rfl, hspaces₁, -, h⟩ := h
    have hfirm := h.startsFirm
    obtain ⟨_, spaces₂, _, rfl, -, rfl, hspaces₂, -, h⟩ := h
    have hfirm' := h.startsFirm
    obtain ⟨_, spaces, text', rfl, hplain, rfl, hspaces, -, h⟩ := h
    refine ⟨MigrationScan.doubleQuote :: (schemaName ++ [MigrationScan.doubleQuote]) ++
      (spaces₁ ++ ([unit '.'] ++ (spaces₂ ++
        MigrationScan.doubleQuote :: (name ++ [MigrationScan.doubleQuote])))),
      spaces, text', List.cons_ne_nil _ _, by simp only [List.append_assoc, List.cons_append],
      hspaces, h, ?_⟩
    rw [tableRefs, matchQuoted_name (hschema schemaName rfl) hplain₁.doubleQuote,
      Option.bind_some, skipSpaces_append hspaces₁ hfirm, List.singleton_append, matchUnit,
      if_pos rfl, Option.bind_some, skipSpaces_append hspaces₂ hfirm',
      matchQuoted_name hname hplain.doubleQuote]
    rfl

/-- Words and white space that no field is divided or ended by. -/
def Plainly (text : JsString) : Prop := unit ',' ∉ text ∧ unit ')' ∉ text

theorem Plainly.append {text text' : JsString} (h : Plainly text) (h' : Plainly text') :
    Plainly (text ++ text') := by
  constructor
  · rw [List.mem_append, not_or]
    exact ⟨h.1, h'.1⟩
  · rw [List.mem_append, not_or]
    exact ⟨h.2, h'.2⟩

theorem plainly_spaces {spaces : JsString} (h : Spaces spaces) : Plainly spaces :=
  ⟨fun hmem => absurd (h _ hmem) (by decide), fun hmem => absurd (h _ hmem) (by decide)⟩

/-- The text of the words before the next token. -/
theorem Renders.exists_words {words : List Token} (h : Renders (words ++ tokens) text)
    (hwords : ∀ token ∈ words, ∃ keyword, token = .word keyword) :
    ∃ front text', text = front ++ text' ∧ Plainly front ∧ Renders tokens text' := by
  induction words generalizing text with
  | nil => exact ⟨[], text, rfl, ⟨List.not_mem_nil, List.not_mem_nil⟩, h⟩
  | cons token words ih =>
    obtain ⟨spelling, spaces, _, rfl, hplain, hspelled, hspaces, -, h⟩ := h
    obtain ⟨front, text', rfl, hfront, h'⟩ := ih h fun t ht => hwords t (by simp [ht])
    obtain ⟨keyword, rfl⟩ := hwords token (by simp)
    have hletters : ∀ u ∈ spelling, u ∉ js "(),.;" := by
      intro u hu
      have hlower : asciiLowerUnit u ∈ keyword := by
        rw [← show asciiLower spelling = keyword from hspelled]
        exact List.mem_map_of_mem hu
      exact (isWhiteSpace_letter (hplain.2 _ hlower)).2.1
    have hspelling : Plainly spelling :=
      ⟨fun hmem => hletters _ hmem (by decide), fun hmem => hletters _ hmem (by decide)⟩
    refine ⟨spelling ++ (spaces ++ front), text', by simp only [List.append_assoc],
      hspelling.append ((plainly_spaces hspaces).append hfront), h'⟩

theorem modifiers_words (column : Column) :
    ∀ token ∈ column.modifiers, ∃ keyword, token = .word keyword := by
  intro token htoken
  obtain ⟨name, direction, nulls⟩ := column
  rcases List.mem_append.mp htoken with hdirection | hnulls
  · cases direction with
    | none => cases hdirection
    | some direction => cases direction <;> exact ⟨_, List.mem_singleton.mp hdirection⟩
  · cases nulls with
    | none => cases hnulls
    | some nulls =>
      cases nulls <;>
      · rcases List.mem_pair.mp hnulls with htoken | htoken
        · exact ⟨_, htoken⟩
        · exact ⟨_, htoken⟩

theorem trim_field {spaces name tail : JsString} (hspaces : Spaces spaces) :
    ∃ tail', trim (spaces ++ (MigrationScan.doubleQuote ::
        (name ++ MigrationScan.doubleQuote :: tail))) =
      MigrationScan.doubleQuote :: (name ++ MigrationScan.doubleQuote :: tail') := by
  have hfirm : isWhiteSpace MigrationScan.doubleQuote = false := by decide
  have hstart : (spaces ++ (MigrationScan.doubleQuote ::
      (name ++ MigrationScan.doubleQuote :: tail))).dropWhile isWhiteSpace =
        MigrationScan.doubleQuote :: (name ++ MigrationScan.doubleQuote :: tail) := by
    rw [List.dropWhile_append_of_pos hspaces, List.dropWhile_cons_of_neg (by simp [hfirm])]
  refine ⟨(tail.reverse.dropWhile isWhiteSpace).reverse, ?_⟩
  have hreverse : (MigrationScan.doubleQuote ::
      (name ++ MigrationScan.doubleQuote :: tail)).reverse =
        tail.reverse ++ MigrationScan.doubleQuote ::
          (name.reverse ++ [MigrationScan.doubleQuote]) := by simp
  have hend : (tail.reverse ++ MigrationScan.doubleQuote ::
      (name.reverse ++ [MigrationScan.doubleQuote])).dropWhile isWhiteSpace =
        tail.reverse.dropWhile isWhiteSpace ++ MigrationScan.doubleQuote ::
          (name.reverse ++ [MigrationScan.doubleQuote]) := by
    rw [List.dropWhile_append, List.dropWhile_cons_of_neg (by simp [hfirm])]
    split_ifs with hempty
    · rw [List.isEmpty_iff.mp hempty, List.nil_append]
    · rfl
  rw [trim, hstart, hreverse, hend]
  simp

theorem parseMigrationFields_append (field rest : JsString) :
    parseMigrationFields (field ++ unit ',' :: rest) =
      parseMigrationFields field ++ parseMigrationFields rest := by
  have hsplit : (field ++ unit ',' :: rest).splitOn (unit ',') =
      field.splitOn (unit ',') ++ rest.splitOn (unit ',') :=
    List.splitOnP_append_cons _ _ (by simp)
  simp only [parseMigrationFields, hsplit, List.map_append, List.filter_append]

theorem parseMigrationFields_field {spaces name tail : JsString} (hspaces : Spaces spaces)
    (hne : name ≠ []) (hquote : MigrationScan.doubleQuote ∉ name)
    (hname : unit ',' ∉ name) (htail : unit ',' ∉ tail) :
    parseMigrationFields (spaces ++ (MigrationScan.doubleQuote ::
      (name ++ MigrationScan.doubleQuote :: tail))) = [snakeToCamel name] := by
  obtain ⟨tail', htrim⟩ := @trim_field spaces name tail hspaces
  have hcomma : unit ',' ∉ spaces ++ (MigrationScan.doubleQuote ::
      (name ++ MigrationScan.doubleQuote :: tail)) := by
    simp only [List.mem_append, List.mem_cons, not_or]
    exact ⟨(plainly_spaces hspaces).1, by decide, hname, by decide, htail⟩
  rw [parseMigrationFields, splitOn_of_notMem hcomma, List.map_singleton, htrim]
  simp only [List.filter_cons, List.filter_nil]
  rw [if_pos (by simp), List.map_singleton, matchQuoted_append hne hquote]
  rfl

theorem Renders.exists_column {column : Column} (h : Renders (column.tokens ++ tokens) text) :
    ∃ tail text', text = MigrationScan.doubleQuote ::
        (column.name ++ MigrationScan.doubleQuote :: tail) ++ text' ∧ Plainly tail ∧
      MigrationScan.doubleQuote ∉ column.name ∧ Renders tokens text' := by
  obtain ⟨_, spaces, _, rfl, hplain, rfl, hspaces, -, h⟩ := h
  obtain ⟨words, text', rfl, hwords, h⟩ := Renders.exists_words h (modifiers_words column)
  exact ⟨spaces ++ words, text', by simp, (plainly_spaces hspaces).append hwords,
    hplain.doubleQuote, h⟩

/-- The text between the parentheses, whose fields are the columns. -/
theorem exists_fields {columns : List Column}
    (h : Renders (listed (columns.map Column.tokens) ++ .punct (unit ')') :: tokens) text)
    (hne : columns ≠ []) (hnames : ∀ column ∈ columns, column.name ≠ [] ∧ Plainly column.name) :
    ∃ fields spaces text', text = fields ++ unit ')' :: (spaces ++ text') ∧ fields ≠ [] ∧
      unit ')' ∉ fields ∧ Spaces spaces ∧ Renders tokens text' ∧
      ∀ lead, Spaces lead → parseMigrationFields (lead ++ fields) =
        columns.map (fun column => snakeToCamel column.name) := by
  have hquote : MigrationScan.doubleQuote ≠ unit ')' := by decide
  induction columns generalizing text with
  | nil => exact absurd rfl hne
  | cons column columns ih =>
    obtain ⟨hname, hplainly⟩ := hnames column (by simp)
    have hfield : ∀ {tail : JsString}, Plainly tail → unit ')' ∉ MigrationScan.doubleQuote ::
        (column.name ++ MigrationScan.doubleQuote :: tail) := by
      intro tail htail
      simp only [List.mem_cons, List.mem_append, not_or]
      exact ⟨hquote.symm, hplainly.2, hquote.symm, htail.2⟩
    cases columns with
    | nil =>
      obtain ⟨tail, _, rfl, htail, hdouble, h⟩ := Renders.exists_column h
      obtain ⟨_, spaces, text', rfl, -, rfl, hspaces, -, h⟩ := h
      exact ⟨_, spaces, text', rfl, List.cons_ne_nil _ _, hfield htail, hspaces, h,
        fun lead hlead => parseMigrationFields_field hlead hname hdouble hplainly.1 htail.1⟩
    | cons next columns =>
      have hsplit : listed ((column :: next :: columns).map Column.tokens) ++
          Token.punct (unit ')') :: tokens = column.tokens ++ Token.punct (unit ',') ::
            (listed ((next :: columns).map Column.tokens) ++ Token.punct (unit ')') :: tokens) := by
        simp only [List.map_cons, listed, List.append_assoc, List.cons_append]
      rw [hsplit] at h
      obtain ⟨tail, _, rfl, htail, hdouble, h⟩ := Renders.exists_column h
      obtain ⟨_, spaces₁, _, rfl, -, rfl, hspaces₁, -, h⟩ := h
      obtain ⟨fields, spaces, text', rfl, -, hparen, hspaces, h, hparse⟩ :=
        ih h (List.cons_ne_nil _ _) fun column hcolumn => hnames column (by simp [hcolumn])
      refine ⟨MigrationScan.doubleQuote ::
          (column.name ++ MigrationScan.doubleQuote :: tail) ++ unit ',' :: (spaces₁ ++ fields),
        spaces, text', by simp only [List.append_assoc, List.cons_append, List.nil_append],
        List.cons_ne_nil _ _, ?_, hspaces, h, fun lead hlead => ?_⟩
      · have hrest : unit ')' ∉ unit ',' :: (spaces₁ ++ fields) := by
          rw [List.mem_cons, List.mem_append, not_or, not_or]
          exact ⟨by decide, (plainly_spaces hspaces₁).2, hparen⟩
        exact fun hmem => (List.mem_append.mp hmem).elim (hfield htail) hrest
      · rw [← List.append_assoc, parseMigrationFields_append, hparse spaces₁ hspaces₁,
          parseMigrationFields_field hlead hname hdouble hplainly.1 htail.1]
        rfl

/-- `matchAll` goes on behind what was found. -/
theorem matchAll_of_found {front : JsString} {found : Found} (hne : front ≠ [])
    (hsplit : text = front ++ rest) (h : matchStatement text = some (found, rest)) :
    matchAll 0 text = found :: matchAll 0 rest := by
  subst hsplit
  exact matchAll_of_match hne h

/-- A word of a pattern with the white space that it wants. -/
theorem Renders.exists_word {keyword : JsString} (h : Renders (.word keyword :: tokens) text)
    (hparted : ∃ next ∈ tokens.head?, parted (.word keyword) next = true) :
    ∃ front mid rest, front ≠ [] ∧ text = front ++ rest ∧ matchWord keyword text = some mid ∧
      matchSpaces mid = some rest ∧ Renders tokens rest := by
  obtain ⟨spelling, spaces, rest, rfl, hplain, hspelled, hspaces, hgap, h⟩ := h
  obtain ⟨next, hnext, hparted⟩ := hparted
  obtain ⟨u, tail, rfl, -⟩ := Spelled.exists_cons hspelled hplain
  exact ⟨u :: tail ++ spaces, spaces ++ rest, rest, List.cons_ne_nil _ _,
    (List.append_assoc _ _ _).symm, matchWord_append hspelled,
    matchSpaces_append (hgap next hnext hparted) hspaces h.startsFirm, h⟩

theorem parted_tokens {keyword : JsString} (hkeyword : keyword ≠ js "concurrently")
    (name : QualifiedName) (tokens : List Token) :
    ∃ next ∈ (name.tokens ++ tokens).head?, parted (.word keyword) next = true := by
  obtain ⟨schemaName, name⟩ := name
  cases schemaName with
  | none => exact ⟨_, rfl, decide_eq_true hkeyword⟩
  | some schemaName => exact ⟨_, rfl, decide_eq_true hkeyword⟩

theorem matchAll_create {name : JsString} {table : QualifiedName} {columns : List Column}
    (h : Renders ((Statement.createIndex name table columns).tokens ++ tokens) text)
    (hvalid : (Statement.createIndex name table columns).Valid)
    (hcolumns : ∀ column ∈ columns, Plainly column.name) :
    ∃ fields text', Renders tokens text' ∧
      matchAll 0 text = .create name table.name fields :: matchAll 0 text' ∧
      parseMigrationFields fields = columns.map (fun column => snakeToCamel column.name) := by
  obtain ⟨hname, htable, hschema, hne, hnames⟩ := hvalid
  simp only [Statement.tokens, List.append_assoc, List.cons_append, List.nil_append] at h
  obtain ⟨create, mid, text₁, hcreate, hsplit, hword, hspaces, h⟩ := h.exists_word ⟨_, rfl, rfl⟩
  obtain ⟨index, mid₁, text₂, -, hsplit₁, hword₁, hspaces₁, h⟩ := h.exists_word ⟨_, rfl, rfl⟩
  obtain ⟨quoted, spaces₂, text₃, hsplit₂, hplain, hquoted, hspaces₂, hgap₂, h⟩ := h
  have hfirm₂ := h.startsFirm
  obtain ⟨on, mid₃, text₄, -, hsplit₃, hword₃, hspaces₃, h⟩ :=
    h.exists_word (parted_tokens (by decide) table _)
  obtain ⟨front, spaces₄, text₅, -, hsplit₄, hspaces₄, h, hrefs⟩ :=
    exists_tableRefs h htable hschema (by simp [unit])
  have hfirm₄ := h.startsFirm
  obtain ⟨paren, spaces₅, text₆, hsplit₅, -, hparen, hspaces₅, -, h⟩ := h
  obtain ⟨fields, spaces₆, text', hsplit₆, hfields, hclose, hspaces₆, h, hparse⟩ :=
    exists_fields h hne fun column hcolumn => ⟨hnames column hcolumn, hcolumns column hcolumn⟩
  refine ⟨spaces₅ ++ fields, text', h, ?_, hparse spaces₅ hspaces₅⟩
  obtain ⟨others, hrefs⟩ := List.head?_eq_some_iff.mp hrefs
  have hname' : matchQuoted text₂ = some (name, spaces₂ ++ text₃) := by
    rw [hsplit₂, show quoted = _ from hquoted]
    exact matchQuoted_name hname hplain.doubleQuote
  have hgap : matchSpaces (spaces₂ ++ text₃) = some text₃ :=
    matchSpaces_append (hgap₂ _ rfl rfl) hspaces₂ hfirm₂
  have hopen : matchUnit (unit '(') (skipSpaces (spaces₄ ++ text₅)) = some (spaces₅ ++ text₆) := by
    rw [skipSpaces_append hspaces₄ hfirm₄, hsplit₅, show paren = _ from hparen,
      List.singleton_append, matchUnit, if_pos rfl]
  have hfields' : matchUntil (unit ')') (spaces₅ ++ text₆) =
      some (spaces₅ ++ fields, spaces₆ ++ text') := by
    rw [hsplit₆, ← List.append_assoc]
    refine matchUntil_append (by simp [hfields]) ?_
    rw [List.mem_append, not_or]
    exact ⟨(plainly_spaces hspaces₅).2, hclose⟩
  have hmatch : matchStatement text =
      some (.create name table.name (spaces₅ ++ fields), spaces₆ ++ text') := by
    rw [matchStatement, matchCreate]
    simp only [hword, hspaces, hword₁, hspaces₁, hname', hgap, hword₃, hspaces₃,
      Option.bind_eq_bind, Option.bind_some, hrefs, List.findSome?_cons, hopen, hfields']
    rfl
  have hfront : text = (create ++ (index ++ (quoted ++ (spaces₂ ++ (on ++ (front ++ (spaces₄ ++
      (paren ++ (spaces₅ ++ (fields ++ [unit ')'])))))))))) ++ (spaces₆ ++ text') := by
    simp only [hsplit, hsplit₁, hsplit₂, hsplit₃, hsplit₄, hsplit₅, hsplit₆, List.append_assoc,
      List.singleton_append]
  rw [matchAll_of_found (by simp [hcreate]) hfront hmatch, passes_spaces hspaces₆]
  rfl

/-- A text starts with one of two words that start differently. -/
theorem matchWord_of_ne {word word' found : JsString} (h : matchWord word text = some found)
    (hne : word.head? ≠ word'.head?) (hword' : word' ≠ []) (hword : word ≠ []) :
    matchWord word' text = none := by
  obtain ⟨u, word, rfl⟩ := List.exists_cons_of_ne_nil hword
  obtain ⟨v, word', rfl⟩ := List.exists_cons_of_ne_nil hword'
  rw [matchWord] at h ⊢
  split_ifs at h with hlower
  rw [if_neg]
  intro hlower'
  cases text with
  | nil => cases hlower
  | cons w text =>
    rw [List.length_cons, List.take_succ_cons, asciiLower, List.map_cons] at hlower hlower'
    obtain ⟨hu, -⟩ := List.cons.inj hlower
    obtain ⟨hv, -⟩ := List.cons.inj hlower'
    exact hne (by rw [List.head?_cons, List.head?_cons, ← hu, ← hv])

theorem matchCreate_of_drop {found : JsString} (h : matchWord (js "drop") text = some found) :
    matchCreate text = none := by
  rw [matchCreate, matchWord_of_ne h (by decide) (by decide) (by decide)]
  rfl

theorem matchIfExists_of_none (h : matchWord (js "if") text = none) :
    matchIfExists text = none := by
  rw [matchIfExists, h]
  rfl

theorem Renders.matchIfExists_none {name : QualifiedName}
    (h : Renders (name.tokens ++ tokens) text) : matchIfExists text = none := by
  refine matchIfExists_of_none ?_
  cases text with
  | nil => rfl
  | cons u text =>
    obtain ⟨token, hhead, -, hopens⟩ := h.exists_head rfl
    have hu : u = MigrationScan.doubleQuote := by
      obtain ⟨schemaName, name⟩ := name
      cases schemaName with
      | none =>
        obtain rfl : Token.name name = token := Option.some.inj hhead
        exact hopens
      | some schemaName =>
        obtain rfl : Token.name schemaName = token := Option.some.inj hhead
        exact hopens
    have hif : js "if" = [unit 'i', unit 'f'] := rfl
    rw [hif, matchWord, if_neg]
    rw [List.length_cons, List.take_succ_cons, asciiLower, List.map_cons, hu]
    exact fun heq => absurd (List.cons.inj heq).1 (by decide)

theorem mem_listed {token : Token} {lists : List (List Token)} (h : token ∈ listed lists) :
    token = .punct (unit ',') ∨ ∃ tokens ∈ lists, token ∈ tokens := by
  induction lists with
  | nil => cases h
  | cons tokens lists ih =>
    cases lists with
    | nil => exact .inr ⟨tokens, by simp, h⟩
    | cons next lists =>
      have hsplit : listed (tokens :: next :: lists) =
          tokens ++ .punct (unit ',') :: listed (next :: lists) := rfl
      rw [hsplit, List.mem_append, List.mem_cons] at h
      rcases h with h | rfl | h
      · exact .inr ⟨tokens, by simp, h⟩
      · exact .inl rfl
      · obtain hcomma | ⟨tokens', hmem, h⟩ := ih h
        · exact .inl hcomma
        · exact .inr ⟨tokens', by simp [hmem], h⟩

/-- What comes after the first entry of a list. -/
theorem exists_listed (first : List Token) (lists : List (List Token)) :
    ∃ more, listed (first :: lists) = first ++ more ∧
      (∀ token ∈ more.head?, token = .punct (unit ',')) ∧
      ∀ token ∈ more, token = .punct (unit ',') ∨ ∃ tokens ∈ lists, token ∈ tokens := by
  cases lists with
  | nil => exact ⟨[], (List.append_nil _).symm, by simp, by simp⟩
  | cons next lists =>
    refine ⟨.punct (unit ',') :: listed (next :: lists), rfl, by simp, fun token htoken => ?_⟩
    rcases List.mem_cons.mp htoken with rfl | htoken
    · exact .inl rfl
    · exact mem_listed htoken

/-- A name in the text that the patterns pass over. -/
def QualifiedName.PassedOver (name : QualifiedName) : Prop :=
  (∀ u ∈ name.name.getLast?, isWhiteSpace u = false) ∧
    ∀ schemaName ∈ name.schemaName, ∀ u ∈ schemaName.getLast?, isWhiteSpace u = false

theorem inert_name {name : QualifiedName} (h : QualifiedName.PassedOver name) :
    ∀ token ∈ name.tokens, Inert token := by
  obtain ⟨schemaName, name⟩ := name
  intro token htoken
  cases schemaName with
  | none =>
    rw [List.mem_singleton.mp htoken]
    exact h.1
  | some schemaName =>
    simp only [QualifiedName.tokens, List.mem_cons, List.not_mem_nil, or_false] at htoken
    rcases htoken with rfl | rfl | rfl
    · exact h.2 schemaName rfl
    · trivial
    · exact h.1

theorem inert_behavior (behavior : Option DropBehavior) :
    ∀ token ∈ behavior.elim [] DropBehavior.tokens, Inert token := by
  intro token htoken
  cases behavior with
  | none => cases htoken
  | some behavior =>
    cases behavior with
    | cascade =>
      rw [List.mem_singleton.mp htoken]
      exact (by decide : passedOver (js "cascade") = true)
    | restrict =>
      rw [List.mem_singleton.mp htoken]
      exact (by decide : passedOver (js "restrict") = true)

/-- The name of a drop decides what the pattern finds there. -/
theorem Renders.exists_drop {ifExists : Bool} {name : QualifiedName}
    (h : Renders (keyword "drop" :: keyword "index" ::
      ((if ifExists then [keyword "if", keyword "exists"] else []) ++ (name.tokens ++ tokens)))
      text) :
    ∃ front start, front ≠ [] ∧ text = front ++ start ∧ Renders (name.tokens ++ tokens) start ∧
      ∀ ref, (tableRefs start).head? = some ref →
        matchStatement text = some (.drop ref.1, ref.2) := by
  cases ifExists with
  | false =>
    obtain ⟨drop, mid, text₁, hdrop, hsplit, hword, hspaces, h⟩ := h.exists_word ⟨_, rfl, rfl⟩
    obtain ⟨index, mid₁, text₂, -, hsplit₁, hword₁, hspaces₁, h⟩ :=
      Renders.exists_word h (parted_tokens (by decide) name tokens)
    refine ⟨drop ++ index, text₂, by simp [hdrop], by rw [hsplit, hsplit₁, List.append_assoc], h,
      fun ref href => ?_⟩
    rw [matchStatement, matchCreate_of_drop hword, matchDrop]
    simp only [hword, hspaces, hword₁, hspaces₁, Option.bind_eq_bind, Option.bind_some,
      Renders.matchIfExists_none h, Option.toList_none, List.nil_append, List.findSome?_cons, href,
      Option.map_some]
    rfl
  | true =>
    obtain ⟨drop, mid, text₁, hdrop, hsplit, hword, hspaces, h⟩ := h.exists_word ⟨_, rfl, rfl⟩
    obtain ⟨index, mid₁, text₂, -, hsplit₁, hword₁, hspaces₁, h⟩ :=
      Renders.exists_word h ⟨_, rfl, rfl⟩
    obtain ⟨ifs, mid₂, text₃, -, hsplit₂, hword₂, hspaces₂, h⟩ :=
      Renders.exists_word h ⟨_, rfl, rfl⟩
    obtain ⟨exist, mid₃, text₄, -, hsplit₃, hword₃, hspaces₃, h⟩ :=
      Renders.exists_word h (parted_tokens (by decide) name tokens)
    refine ⟨drop ++ (index ++ (ifs ++ exist)), text₄, by simp [hdrop], ?_, h, fun ref href => ?_⟩
    · simp only [hsplit, hsplit₁, hsplit₂, hsplit₃, List.append_assoc]
    · have hexists : matchIfExists text₂ = some text₄ := by
        rw [matchIfExists]
        simp only [hword₂, hspaces₂, hword₃, hspaces₃, Option.bind_eq_bind, Option.bind_some]
      rw [matchStatement, matchCreate_of_drop hword, matchDrop]
      simp only [hword, hspaces, hword₁, hspaces₁, Option.bind_eq_bind, Option.bind_some, hexists,
        Option.toList_some, List.singleton_append, List.findSome?_cons, href, Option.map_some]
      rfl

theorem matchAll_drop {ifExists : Bool} {name : QualifiedName} {names : List QualifiedName}
    {behavior : Option DropBehavior}
    (h : Renders ((Statement.dropIndex false ifExists (name :: names) behavior).tokens ++ tokens)
      text)
    (hvalid : (Statement.dropIndex false ifExists (name :: names) behavior).Valid)
    (hnames : ∀ other ∈ names, QualifiedName.PassedOver other)
    (hend : tokens.head? ≠ some (.punct (unit '.'))) :
    ∃ text', Renders tokens text' ∧ matchAll 0 text = .drop name.name :: matchAll 0 text' := by
  obtain ⟨hname, hschema⟩ := hvalid.2 name (by simp)
  obtain ⟨more, hlisted, hcomma, hmore⟩ :=
    exists_listed name.tokens (names.map QualifiedName.tokens)
  have hinert : ∀ token ∈ more ++ behavior.elim [] DropBehavior.tokens, Inert token := by
    intro token htoken
    rcases List.mem_append.mp htoken with htoken | htoken
    · rcases hmore token htoken with rfl | ⟨tokens', htokens', hmem⟩
      · trivial
      · obtain ⟨other, hother, rfl⟩ := List.mem_map.mp htokens'
        exact inert_name (hnames other hother) token hmem
    · exact inert_behavior behavior token htoken
  have hhead : (more ++ behavior.elim [] DropBehavior.tokens ++ tokens).head? ≠
      some (.punct (unit '.')) := by
    cases more with
    | nil =>
      cases behavior with
      | none => exact hend
      | some behavior => cases behavior <;> simp [DropBehavior.tokens, keyword]
    | cons token more =>
      rw [hcomma token rfl]
      simp [unit]
  have htokens : (Statement.dropIndex false ifExists (name :: names) behavior).tokens ++ tokens =
      keyword "drop" :: keyword "index" ::
        ((if ifExists then [keyword "if", keyword "exists"] else []) ++ (name.tokens ++
          (more ++ behavior.elim [] DropBehavior.tokens ++ tokens))) := by
    simp [Statement.tokens, hlisted]
  rw [htokens] at h
  obtain ⟨front, start, hfront, hsplit, h, hmatch⟩ := h.exists_drop
  obtain ⟨quoted, spaces, text', -, hquoted, hspaces, h, hrefs⟩ :=
    exists_tableRefs h hname hschema hhead
  obtain ⟨text'', h, hskip⟩ := Renders.skipAll h hinert
  refine ⟨text'', h, ?_⟩
  have hfound : text = (front ++ quoted) ++ (spaces ++ text') := by
    rw [hsplit, hquoted, List.append_assoc]
  rw [matchAll_of_found (by simp [hfront]) hfound (hmatch _ hrefs), passes_spaces hspaces, ← hskip]
  rfl

/-- A drop that the pattern does not know is passed over. -/
theorem matchAll_concurrently {ifExists : Bool} {names : List QualifiedName}
    {behavior : Option DropBehavior}
    (h : Renders ((Statement.dropIndex true ifExists names behavior).tokens ++ tokens) text)
    (hnames : ∀ name ∈ names, QualifiedName.PassedOver name) :
    ∃ text', Renders tokens text' ∧ matchAll 0 text = matchAll 0 text' := by
  have htokens : (Statement.dropIndex true ifExists names behavior).tokens ++ tokens =
      keyword "drop" :: ([keyword "index", keyword "concurrently"] ++
        (if ifExists then [keyword "if", keyword "exists"] else []) ++
          listed (names.map QualifiedName.tokens) ++ behavior.elim [] DropBehavior.tokens ++
            tokens) := by
    simp [Statement.tokens]
  rw [htokens] at h
  have hinert : ∀ token ∈ [keyword "index", keyword "concurrently"] ++
      (if ifExists then [keyword "if", keyword "exists"] else []) ++
        listed (names.map QualifiedName.tokens) ++ behavior.elim [] DropBehavior.tokens,
      Inert token := by
    intro token htoken
    rcases List.mem_append.mp htoken with htoken | htoken
    · rcases List.mem_append.mp htoken with htoken | htoken
      · have hword : token ∈ [keyword "index", keyword "concurrently", keyword "if",
            keyword "exists"] := by
          cases ifExists <;> simp at htoken ⊢ <;> tauto
        simp only [List.mem_cons, List.not_mem_nil, or_false] at hword
        rcases hword with rfl | rfl | rfl | rfl
        · exact (by decide : passedOver (js "index") = true)
        · exact (by decide : passedOver (js "concurrently") = true)
        · exact (by decide : passedOver (js "if") = true)
        · exact (by decide : passedOver (js "exists") = true)
      · rcases mem_listed htoken with rfl | ⟨tokens', htokens', hmem⟩
        · trivial
        · obtain ⟨name, hname, rfl⟩ := List.mem_map.mp htokens'
          exact inert_name (hnames name hname) token hmem
    · exact inert_behavior behavior token htoken
  have hnone : matchStatement text = none := by
    obtain ⟨drop, mid, text₁, -, -, hword, hspaces, h⟩ := h.exists_word ⟨_, rfl, rfl⟩
    obtain ⟨index, mid₁, text₂, -, -, hword₁, hspaces₁, h⟩ := h.exists_word ⟨_, rfl, rfl⟩
    have hquoted : matchQuoted text₂ = none := h.matchQuoted_none (by simp [keyword])
    obtain ⟨concurrently, spaces, rest, rfl, -, hspelled, -⟩ := h
    have hif : matchIfExists (concurrently ++ (spaces ++ rest)) = none :=
      matchIfExists_of_none (matchWord_of_ne (matchWord_append hspelled) (by decide) (by decide)
        (by decide))
    rw [matchStatement, matchCreate_of_drop hword, matchDrop]
    simp only [hword, hspaces, hword₁, hspaces₁, Option.bind_eq_bind, Option.bind_some, hif,
      Option.toList_none, List.nil_append, List.findSome?_cons, tableRefs_eq_nil hquoted]
    rfl
  obtain ⟨spelling, spaces, rest, rfl, -, hspelled, hspaces, -, h⟩ := h
  have hlower : asciiLower spelling = js "drop" := hspelled
  cases spelling with
  | nil => cases hlower
  | cons u spelling =>
    have hrest : asciiLower spelling = js "rop" := (List.cons.inj hlower).2
    obtain ⟨text', h, hskip⟩ := Renders.skipAll h hinert
    refine ⟨text', h, ?_⟩
    rw [List.cons_append] at hnone ⊢
    rw [matchAll_of_none hnone, passes_word (by decide) hrest, passes_spaces hspaces, ← hskip]
    rfl

end Reading

end Appspine.MigrationStatements
