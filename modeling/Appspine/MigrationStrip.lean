import Appspine.SqlScript
import Appspine.MigrationScan

/-!
# A migration without its comments

`stripSqlComments` knows no names and no nesting. On a script whose names and comments do not
mislead it, every separator becomes white space, and the tokens stay as they are.
-/
namespace Appspine.MigrationStrip
open JsText SqlScript MigrationScan

section Passes

variable {α β : Type*} {f : List α → List β}

/-- A pass over a text turns this piece of it into that, whatever follows. -/
def Passes (f : List α → List β) (piece : List α) (result : List β) : Prop :=
  ∀ rest, f (piece ++ rest) = result ++ f rest

theorem passes_nil : Passes f [] [] := fun _ => rfl

theorem Passes.append {piece piece' : List α} {result result' : List β}
    (h : Passes f piece result) (h' : Passes f piece' result') :
    Passes f (piece ++ piece') (result ++ result') := by
  intro rest
  rw [List.append_assoc, h, h', List.append_assoc]

end Passes

section BlockComments

theorem afterClose_append {text rest rest' : JsString} (h : afterClose text = some rest') :
    afterClose (text ++ rest) = some (rest' ++ rest) := by
  induction text using afterClose.induct with
  | case1 u v text hclose =>
    rw [afterClose, if_pos hclose] at h
    obtain rfl := Option.some.inj h
    rw [List.cons_append, List.cons_append, afterClose, if_pos hclose]
  | case2 u v text hclose ih =>
    rw [afterClose, if_neg hclose] at h
    rw [List.cons_append, List.cons_append, afterClose, if_neg hclose]
    exact ih h
  | case3 text hshort =>
    rw [afterClose] at h
    · cases h
    · exact hshort

/-- In a comment the pass goes on after the next closing marker. -/
theorem withoutBlockComments_inside {text rest : JsString} (h : afterClose text = some rest) :
    withoutBlockComments true text = withoutBlockComments false rest := by
  induction text using afterClose.induct with
  | case1 u v text hclose =>
    rw [afterClose, if_pos hclose] at h
    obtain rfl := Option.some.inj h
    rw [withoutBlockComments, if_pos rfl, if_pos hclose]
  | case2 u v text hclose ih =>
    rw [afterClose, if_neg hclose] at h
    rw [withoutBlockComments, if_pos rfl, if_neg hclose, ih h]
  | case3 text hshort =>
    rw [afterClose] at h
    · cases h
    · exact hshort

/-- A text in which no comment opens, not even with what follows. -/
theorem passes_withoutBlockComments {piece : JsString} (hopen : ¬ js "/*" <:+: piece)
    (hlast : piece.getLast? ≠ some (unit '/')) :
    Passes (withoutBlockComments false) piece piece := by
  intro rest
  induction piece with
  | nil => rfl
  | cons u piece ih =>
    have hopen' : ¬ js "/*" <:+: piece := fun h => hopen (h.trans (List.suffix_cons u piece).isInfix)
    cases piece with
    | nil =>
      have hu : u ≠ unit '/' := fun h => hlast (by rw [h]; rfl)
      cases rest with
      | nil => rfl
      | cons v rest =>
        rw [List.singleton_append, withoutBlockComments, if_neg (by simp), if_neg (by simp [hu])]
        rfl
    | cons v piece =>
      have hnot : ¬ (u = unit '/' ∧ v = unit '*') := by
        rintro ⟨rfl, rfl⟩
        exact hopen ⟨[], piece, rfl⟩
      rw [List.cons_append, List.cons_append, withoutBlockComments, if_neg (by simp),
        if_neg fun h => hnot ⟨h.1, h.2.1⟩, ← List.cons_append, ih hopen' (by simpa using hlast)]
      rfl

/-- Whether a text ends inside of a comment that opens in it. -/
def endsInside : Bool → JsString → Bool
  | inComment, u :: v :: text =>
    if inComment then
      if u = unit '*' ∧ v = unit '/' then endsInside false text else endsInside true (v :: text)
    else if u = unit '/' ∧ v = unit '*' then endsInside true text
    else endsInside false (v :: text)
  | inComment, _ => inComment

theorem afterClose_of_endsInside {inComment : Bool} {text : JsString}
    (h : endsInside inComment text = false) (hinside : inComment = true) :
    (afterClose text).isSome = true := by
  induction inComment, text using endsInside.induct with
  | case1 u v text hclose => rw [afterClose, if_pos hclose]; rfl
  | case2 u v text hclose ih =>
    rw [endsInside, if_pos rfl, if_neg hclose] at h
    rw [afterClose, if_neg hclose]
    exact ih h rfl
  | case3 inComment u v text hout => exact absurd hinside hout
  | case4 inComment u v text hout => exact absurd hinside hout
  | case5 text inComment hshort =>
    rw [endsInside, hinside] at h
    · cases h
    · exact hshort

/-- A line with comments of its own becomes a line. -/
theorem exists_withoutBlockComments_line {inComment : Bool} {text : JsString}
    (h : endsInside inComment (text ++ [lineFeed]) = false) :
    ∃ text', (∀ u ∈ text', u ∈ text ∨ u = unit ' ') ∧
      ∀ rest, withoutBlockComments inComment (text ++ lineFeed :: rest) =
        text' ++ lineFeed :: withoutBlockComments false rest := by
  have hfeed : lineFeed ≠ unit '*' ∧ lineFeed ≠ unit '/' := by decide
  have hnil : ∀ rest, withoutBlockComments false (lineFeed :: rest) =
      lineFeed :: withoutBlockComments false rest := by
    intro rest
    cases rest with
    | nil => rfl
    | cons v rest => rw [withoutBlockComments, if_neg (by simp), if_neg (by simp [hfeed.2])]
  induction inComment, text using endsInside.induct with
  | case1 u v text hclose ih =>
    rw [List.cons_append, List.cons_append, endsInside, if_pos rfl, if_pos hclose] at h
    obtain ⟨text', hmem, hpass⟩ := ih h
    refine ⟨text', fun w hw => (hmem w hw).imp_left (by simp +contextual), fun rest => ?_⟩
    rw [List.cons_append, List.cons_append, withoutBlockComments, if_pos rfl, if_pos hclose, hpass]
  | case2 u v text hclose ih =>
    rw [List.cons_append, List.cons_append, endsInside, if_pos rfl, if_neg hclose] at h
    obtain ⟨text', hmem, hpass⟩ := ih h
    refine ⟨text', fun w hw => (hmem w hw).imp_left (by simp +contextual), fun rest => ?_⟩
    rw [List.cons_append, List.cons_append, withoutBlockComments, if_pos rfl, if_neg hclose,
      ← List.cons_append, hpass]
  | case3 inComment u v text hout hopen ih =>
    rw [Bool.not_eq_true] at hout
    subst hout
    rw [List.cons_append, List.cons_append, endsInside, if_neg (by simp), if_pos hopen] at h
    obtain ⟨text', hmem, hpass⟩ := ih h
    obtain ⟨rest', hclose⟩ := Option.isSome_iff_exists.mp (afterClose_of_endsInside h rfl)
    refine ⟨unit ' ' :: text', ?_, fun rest => ?_⟩
    · intro w hw
      rcases List.mem_cons.mp hw with rfl | hw
      · exact .inr rfl
      · exact (hmem w hw).imp_left (by simp +contextual)
    · have hlong : (afterClose (text ++ lineFeed :: rest)).isSome = true := by
        rw [← List.singleton_append, ← List.append_assoc, afterClose_append hclose]
        rfl
      rw [List.cons_append, List.cons_append, withoutBlockComments, if_neg (by simp),
        if_pos ⟨hopen.1, hopen.2, hlong⟩, hpass]
      rfl
  | case4 inComment u v text hout hopen ih =>
    rw [Bool.not_eq_true] at hout
    subst hout
    rw [List.cons_append, List.cons_append, endsInside, if_neg (by simp), if_neg hopen] at h
    obtain ⟨text', hmem, hpass⟩ := ih h
    refine ⟨u :: text', ?_, fun rest => ?_⟩
    · intro w hw
      rcases List.mem_cons.mp hw with rfl | hw
      · exact .inl (by simp)
      · exact (hmem w hw).imp_left (by simp +contextual)
    · rw [List.cons_append, List.cons_append, withoutBlockComments, if_neg (by simp),
        if_neg fun hall => hopen ⟨hall.1, hall.2.1⟩, ← List.cons_append, hpass]
      rfl
  | case5 text inComment hshort =>
    have hlen : text = [] ∨ ∃ u, text = [u] := by
      match text with
      | [] => exact .inl rfl
      | [u] => exact .inr ⟨u, rfl⟩
      | u :: v :: text => exact absurd rfl (hshort u v text)
    have hout : inComment = false := by
      by_contra hinside
      rw [Bool.not_eq_false] at hinside
      subst hinside
      rcases hlen with rfl | ⟨u, rfl⟩
      · cases h
      · rw [List.singleton_append, endsInside, if_pos rfl, if_neg fun hall => hfeed.2 hall.2] at h
        cases h
    subst hout
    rcases hlen with rfl | ⟨u, rfl⟩
    · exact ⟨[], by simp, hnil⟩
    · refine ⟨[u], by simp, fun rest => ?_⟩
      rw [List.singleton_append, withoutBlockComments, if_neg (by simp),
        if_neg fun hall => hfeed.1 hall.2.1, hnil]
      rfl

/-- A block comment that opens no other is one for the pattern too. -/
theorem afterClose_of_commentRest {body : JsString}
    (h : commentRest 1 (body ++ js "*/") = some []) (hopen : ¬ js "/*" <:+: body) (rest : JsString) :
    afterClose (body ++ js "*/" ++ rest) = some rest := by
  induction body with
  | nil => rfl
  | cons u body ih =>
    have hopen' : ¬ js "/*" <:+: body := fun h => hopen (h.trans (List.suffix_cons u body).isInfix)
    obtain ⟨v, tail, htail⟩ : ∃ v tail, body ++ js "*/" = v :: tail := by
      cases body with
      | nil => exact ⟨_, _, rfl⟩
      | cons v body => exact ⟨_, _, rfl⟩
    rw [List.cons_append, htail, commentRest] at h
    have hnot : ¬ (u = unit '/' ∧ v = unit '*') := by
      rintro ⟨rfl, rfl⟩
      cases body with
      | nil =>
        obtain ⟨-, rfl⟩ := List.cons.inj htail
        rw [if_pos ⟨rfl, rfl⟩] at h
        cases h
      | cons w body =>
        obtain ⟨rfl, -⟩ := List.cons.inj htail
        exact hopen ⟨[], body, rfl⟩
    rw [if_neg hnot] at h
    have hclose : ¬ (u = unit '*' ∧ v = unit '/') := by
      rintro ⟨rfl, rfl⟩
      rw [if_pos ⟨rfl, rfl⟩, commentRest] at h
      obtain rfl := Option.some.inj h
      have hlength := congrArg List.length htail
      rw [List.length_append] at hlength
      have htwo : (js "*/").length = 2 := rfl
      simp only [htwo, List.length_cons, List.length_nil] at hlength
      omega
    rw [if_neg hclose] at h
    have hbody := ih (htail ▸ h) hopen'
    rw [List.cons_append, htail, List.cons_append, List.cons_append, afterClose, if_neg hclose,
      ← List.cons_append, ← htail, hbody]

theorem passes_block {body : JsString} (h : commentRest 1 (body ++ js "*/") = some [])
    (hopen : ¬ js "/*" <:+: body) :
    Passes (withoutBlockComments false) (js "/*" ++ body ++ js "*/") [unit ' '] := by
  intro rest
  have hclose := afterClose_of_commentRest h hopen rest
  have hsplit : js "/*" ++ body ++ js "*/" ++ rest =
      unit '/' :: unit '*' :: (body ++ js "*/" ++ rest) := by
    rw [List.append_assoc, List.append_assoc, ← List.append_assoc body]
    rfl
  rw [hsplit, withoutBlockComments, if_neg (by simp), if_pos ⟨rfl, rfl, by rw [hclose]; rfl⟩,
    withoutBlockComments_inside hclose]
  rfl

end BlockComments

section LineComments

/-- The second pass of `stripSqlComments`. -/
def stripLines (text : JsString) : JsString := stripLineComments text (js "--") (unit '\'')

theorem stripLines_lines {text first : JsString} {rest : List JsString}
    (h : text.splitOn lineFeed = first :: rest) :
    stripLines text = join [lineFeed]
      (stripLineCommentFromLine (js "--") (unit '\'') false first ::
        rest.map (stripLineCommentFromLine (js "--") (unit '\'') false)) := by
  rw [stripLines, stripLineComments, h, List.map_cons]

theorem join_cons (u : CodeUnit) (line : JsString) (rest : List JsString) :
    join [lineFeed] ((u :: line) :: rest) = u :: join [lineFeed] (line :: rest) := by
  cases rest with
  | nil => simp
  | cons line' rest => rw [join_cons_cons, join_cons_cons]; rfl

theorem exists_splitOn (text : JsString) : ∃ first rest, text.splitOn lineFeed = first :: rest :=
  List.exists_cons_of_ne_nil (List.splitOnP_ne_nil _ _)

theorem splitOn_cons_of_ne {u : CodeUnit} (hu : u ≠ lineFeed) {text first : JsString}
    {rest : List JsString} (h : text.splitOn lineFeed = first :: rest) :
    (u :: text).splitOn lineFeed = (u :: first) :: rest := by
  have hsplit : text.splitOnP (· == lineFeed) = first :: rest := h
  rw [List.splitOn, List.splitOnP_cons_eq_if_modifyHead, hsplit, if_neg (by simpa using hu)]
  rfl

theorem splitOn_lineFeed (text : JsString) :
    (lineFeed :: text).splitOn lineFeed = [] :: text.splitOn lineFeed := by
  rw [List.splitOn, List.splitOnP_cons_eq_if_modifyHead, if_pos (by simp)]
  rfl

/-- The first line of a text is a start of it. -/
theorem prefix_of_splitOn {text first : JsString} {rest : List JsString}
    (h : text.splitOn lineFeed = first :: rest) : first <+: text := by
  induction text generalizing first rest with
  | nil =>
    have hnil : ([] : JsString).splitOn lineFeed = [[]] := by simp
    rw [hnil] at h
    obtain ⟨rfl, -⟩ := List.cons.inj h
    exact List.prefix_refl _
  | cons u text ih =>
    obtain ⟨first', rest', hsplit⟩ := exists_splitOn text
    by_cases hu : u = lineFeed
    · rw [hu, splitOn_lineFeed] at h
      obtain ⟨rfl, -⟩ := List.cons.inj h
      exact List.nil_prefix
    · rw [splitOn_cons_of_ne hu hsplit] at h
      obtain ⟨rfl, -⟩ := List.cons.inj h
      exact (List.cons_prefix_cons).mpr ⟨rfl, ih hsplit⟩

theorem stripLines_lineFeed (text : JsString) :
    stripLines (lineFeed :: text) = lineFeed :: stripLines text := by
  obtain ⟨first, rest, hsplit⟩ := exists_splitOn text
  have hlines : (lineFeed :: text).splitOn lineFeed = [] :: first :: rest := by
    rw [splitOn_lineFeed, hsplit]
  rw [stripLines_lines hlines, stripLines_lines hsplit, List.map_cons, join_cons_cons]
  rfl

/-- A sign that is no part of a marker and no quote. -/
theorem stripLines_cons {u : CodeUnit} {text : JsString} (hfeed : u ≠ lineFeed)
    (hquote : u ≠ unit '\'') (hmarker : ¬ js "--" <+: u :: text) :
    stripLines (u :: text) = u :: stripLines text := by
  obtain ⟨first, rest, hsplit⟩ := exists_splitOn text
  have hline : stripLineCommentFromLine (js "--") (unit '\'') false (u :: first) =
      u :: stripLineCommentFromLine (js "--") (unit '\'') false first := by
    rw [stripLineCommentFromLine]
    simp only [if_neg hquote, true_and]
    rw [if_neg]
    rw [startsWith_iff]
    exact fun h => hmarker (h.trans ((List.cons_prefix_cons).mpr ⟨rfl, prefix_of_splitOn hsplit⟩))
  rw [stripLines_lines (splitOn_cons_of_ne hfeed hsplit), stripLines_lines hsplit, hline, join_cons]

/-- A text without quotes and markers, not even with what follows. -/
theorem passes_stripLines {piece : JsString} (hquote : unit '\'' ∉ piece)
    (hmarker : ¬ js "--" <:+: piece) (hlast : piece.getLast? ≠ some (unit '-')) :
    Passes stripLines piece piece := by
  intro rest
  induction piece with
  | nil => rfl
  | cons u piece ih =>
    have hmarker' : ¬ js "--" <:+: piece :=
      fun h => hmarker (h.trans (List.suffix_cons u piece).isInfix)
    have hlast' : piece.getLast? ≠ some (unit '-') := by
      cases piece with
      | nil => simp
      | cons v piece => simpa using hlast
    have hrest := ih (fun h => hquote (List.mem_cons_of_mem u h)) hmarker' hlast'
    rw [List.cons_append]
    by_cases hfeed : u = lineFeed
    · rw [hfeed, stripLines_lineFeed, hrest]
      rfl
    · rw [stripLines_cons hfeed (fun h => hquote (h ▸ List.mem_cons_self)), hrest]
      · rfl
      · intro hstarts
        have hdashes : js "--" = [unit '-', unit '-'] := rfl
        rw [hdashes, List.cons_prefix_cons] at hstarts
        obtain ⟨rfl, hstarts⟩ := hstarts
        cases piece with
        | nil => exact hlast rfl
        | cons v piece =>
          obtain ⟨rfl, -⟩ := List.cons_prefix_cons.mp hstarts
          exact hmarker ⟨[], piece, rfl⟩

theorem stripLine_marker (line : JsString) :
    stripLineCommentFromLine (js "--") (unit '\'') false (js "--" ++ line) = [] := by
  have hcons : js "--" ++ line = unit '-' :: (unit '-' :: line) := rfl
  rw [hcons, stripLineCommentFromLine, if_pos]
  refine ⟨by rw [if_neg (by decide)], ?_⟩
  rw [startsWith_iff]
  exact ⟨line, rfl⟩

theorem splitOn_of_notMem {separator : CodeUnit} {line : JsString} (h : separator ∉ line) :
    line.splitOn separator = [line] := by
  refine List.splitOnP_eq_singleton ?_
  intro u hu
  simpa using fun heq : u = separator => h (heq ▸ hu)

/-- A comment goes with its line. -/
theorem passes_line {body : JsString} (h : lineFeed ∉ body) :
    Passes stripLines (js "--" ++ body ++ [lineFeed]) [lineFeed] := by
  intro rest
  have hline : lineFeed ∉ js "--" ++ body := by
    rw [List.mem_append, not_or]
    exact ⟨by decide, h⟩
  have hsplit : (js "--" ++ body ++ [lineFeed] ++ rest).splitOn lineFeed =
      (js "--" ++ body) :: rest.splitOn lineFeed := by
    rw [List.append_assoc, List.singleton_append]
    have happend : ((js "--" ++ body) ++ lineFeed :: rest).splitOn lineFeed =
        (js "--" ++ body).splitOn lineFeed ++ rest.splitOn lineFeed :=
      List.splitOnP_append_cons _ _ (by simp)
    rw [happend, splitOn_of_notMem hline, List.singleton_append]
  obtain ⟨first, others, hrest⟩ := exists_splitOn rest
  rw [hrest] at hsplit
  rw [stripLines_lines hsplit, stripLines_lines hrest, stripLine_marker, List.map_cons,
    join_cons_cons]
  rfl

theorem stripLines_last {body : JsString} (h : lineFeed ∉ body) :
    stripLines (js "--" ++ body) = [] := by
  have hline : lineFeed ∉ js "--" ++ body := by
    rw [List.mem_append, not_or]
    exact ⟨by decide, h⟩
  rw [stripLines_lines (splitOn_of_notMem hline), stripLine_marker]
  simp

end LineComments

section Strip

/-- A piece of the text without its comments. -/
def Strips (text clean : JsString) : Prop :=
  ∃ mid, Passes (withoutBlockComments false) text mid ∧ Passes stripLines mid clean

theorem Strips.append {text text' clean clean' : JsString} (h : Strips text clean)
    (h' : Strips text' clean') : Strips (text ++ text') (clean ++ clean') := by
  obtain ⟨mid, hfirst, hsecond⟩ := h
  obtain ⟨mid', hfirst', hsecond'⟩ := h'
  exact ⟨mid ++ mid', hfirst.append hfirst', hsecond.append hsecond'⟩

theorem Strips.flatMap {γ : Type*} {xs : List γ} {text clean : γ → JsString}
    (h : ∀ x ∈ xs, Strips (text x) (clean x)) : Strips (xs.flatMap text) (xs.flatMap clean) := by
  induction xs with
  | nil => exact ⟨[], passes_nil, passes_nil⟩
  | cons x xs ih =>
    rw [List.flatMap_cons, List.flatMap_cons]
    exact (h x (by simp)).append (ih fun y hy => h y (by simp [hy]))

/-- Neither quote nor comment marker, also not with what follows. -/
structure Quiet (text : JsString) : Prop where
  quote : unit '\'' ∉ text
  line : ¬ js "--" <:+: text
  block : ¬ js "/*" <:+: text
  notDash : text.getLast? ≠ some (unit '-')
  notSlash : text.getLast? ≠ some (unit '/')

theorem Quiet.strips {text : JsString} (h : Quiet text) : Strips text text :=
  ⟨text, passes_withoutBlockComments h.block h.notSlash, passes_stripLines h.quote h.line h.notDash⟩

theorem infix_singleton {u v w : CodeUnit} : ¬ [u, v] <:+: [w] := by
  intro h
  have hlength := h.length_le
  simp at hlength

theorem quiet_singleton {u : CodeUnit}
    (h : u ≠ unit '\'' ∧ u ≠ unit '-' ∧ u ≠ unit '/') : Quiet [u] where
  quote := by simpa using h.1.symm
  line := infix_singleton
  block := infix_singleton
  notDash := by simpa using h.2.1
  notSlash := by simpa using h.2.2

/-- A text of letters. -/
theorem quiet_word {text : JsString}
    (h : ∀ u ∈ text, u ≠ unit '\'' ∧ u ≠ unit '-' ∧ u ≠ unit '/') : Quiet text where
  quote hmem := (h _ hmem).1 rfl
  line hcut := (h (unit '-') (hcut.subset (by decide))).2.1 rfl
  block hcut := (h (unit '/') (hcut.subset (by decide))).2.2 rfl
  notDash hlast := (h _ (List.mem_of_getLast? hlast)).2.1 rfl
  notSlash hlast := (h _ (List.mem_of_getLast? hlast)).2.2 rfl

/-- What a name must be for the scan to take it as it is. -/
structure PlainName (text : JsString) : Prop where
  doubleQuote : SqlScript.doubleQuote ∉ text
  quote : unit '\'' ∉ text
  line : ¬ js "--" <:+: text
  block : ¬ js "/*" <:+: text

theorem text_of_plainName {text : JsString} (h : SqlScript.doubleQuote ∉ text) :
    (Token.name text).text = SqlScript.doubleQuote :: text ++ [SqlScript.doubleQuote] := by
  have hsame : text.flatMap (fun u => if u = SqlScript.doubleQuote then [u, u] else [u]) = text := by
    induction text with
    | nil => rfl
    | cons u text ih =>
      rw [List.mem_cons, not_or] at h
      rw [List.flatMap_cons, if_neg (fun heq => h.1 heq.symm), ih h.2]
      rfl
  rw [Token.text, hsame]

/-- A marker in a quoted name is one in the name. -/
theorem infix_quoted {marker text : JsString} {q : CodeUnit} (hq : q ∉ marker) (hne : marker ≠ [])
    (h : marker <:+: q :: text ++ [q]) : marker <:+: text := by
  obtain ⟨front, back, hsplit⟩ := h
  cases front with
  | nil =>
    cases marker with
    | nil => exact absurd rfl hne
    | cons u marker =>
      obtain ⟨rfl, -⟩ := List.cons.inj hsplit
      exact absurd List.mem_cons_self hq
  | cons u front =>
    obtain ⟨-, hsplit⟩ := List.cons.inj hsplit
    rcases List.eq_nil_or_concat back with rfl | ⟨back, v, rfl⟩
    · obtain ⟨init, last, hmarker⟩ := (List.eq_nil_or_concat marker).resolve_left hne
      have hlast : (front ++ marker).getLast? = (text ++ [q]).getLast? := by
        simpa using congrArg List.getLast? hsplit
      rw [List.concat_eq_append] at hmarker
      rw [hmarker, ← List.append_assoc, List.getLast?_concat, List.getLast?_concat] at hlast
      obtain rfl := Option.some.inj hlast
      exact absurd (by rw [hmarker]; simp) hq
    · have hinit : front ++ marker ++ back ++ [v] = text ++ [q] := by simpa using hsplit
      exact ⟨front, back, (List.append_inj' hinit rfl).1⟩

theorem quiet_name {text : JsString} (h : PlainName text) : Quiet (Token.name text).text := by
  rw [text_of_plainName h.doubleQuote]
  have hlast : (SqlScript.doubleQuote :: text ++ [SqlScript.doubleQuote]).getLast? =
      some SqlScript.doubleQuote := List.getLast?_concat
  refine ⟨?_, fun hcut => h.line (infix_quoted (by decide) (by decide) hcut),
    fun hcut => h.block (infix_quoted (by decide) (by decide) hcut), ?_, ?_⟩
  · simp only [List.cons_append, List.mem_cons, List.mem_append, List.not_mem_nil, or_false, not_or]
    exact ⟨by decide, h.quote, by decide⟩
  · rw [hlast]
    decide
  · rw [hlast]
    decide

/-- Comments that the patterns see as PostgreSQL does: one that ends with its line feed and does
not stay open, and one that opens no other. -/
def PlainTrivia : Trivia → Prop
  | .space _ => True
  | .line body ending => ending ≠ .cr ∧ endsInside false (body ++ ending.text) = false
  | .block body => ¬ js "/*" <:+: body

/-- What is left of a separator. -/
def cleanTrivia : Trivia → JsString
  | .space u => [u]
  | .line _ _ => [lineFeed]
  | .block _ => [unit ' ']

theorem isWhiteSpace_of_isSqlSpace {u : CodeUnit} (h : isSqlSpace u = true) :
    isWhiteSpace u = true := by
  simp only [isSqlSpace, isWhiteSpace, decide_eq_true_eq] at h ⊢
  omega

theorem isWhiteSpace_cleanTrivia {trivia : Trivia} (h : trivia.Valid) :
    ∀ u ∈ cleanTrivia trivia, isWhiteSpace u = true := by
  cases trivia with
  | space u => simpa [cleanTrivia] using isWhiteSpace_of_isSqlSpace h
  | line body ending => simp only [cleanTrivia, List.mem_singleton, forall_eq]; decide
  | block body => simp only [cleanTrivia, List.mem_singleton, forall_eq]; decide

theorem strips_lineComment {body : JsString} (hbody : lineFeed ∉ body)
    (h : endsInside false (body ++ [lineFeed]) = false) :
    Strips (js "--" ++ body ++ [lineFeed]) [lineFeed] := by
  obtain ⟨body', hmem, hpass⟩ := exists_withoutBlockComments_line h
  have hfeed : lineFeed ∉ body' := fun hin =>
    (hmem _ hin).elim hbody (fun heq => absurd heq (by decide))
  refine ⟨js "--" ++ body' ++ [lineFeed], ?_, passes_line hfeed⟩
  have hdashes : Passes (withoutBlockComments false) (js "--") (js "--") :=
    passes_withoutBlockComments (by decide) (by decide)
  have hline : Passes (withoutBlockComments false) (body ++ [lineFeed]) (body' ++ [lineFeed]) := by
    intro rest
    rw [List.append_assoc, List.append_assoc, List.singleton_append, hpass]
    rfl
  rw [List.append_assoc, List.append_assoc]
  exact hdashes.append hline

theorem strips_trivia {trivia : Trivia} (hvalid : trivia.Valid) (hplain : PlainTrivia trivia) :
    Strips trivia.text (cleanTrivia trivia) := by
  cases trivia with
  | space u =>
    refine (quiet_singleton ?_).strips
    have hspace : isSqlSpace u = true := hvalid
    refine ⟨?_, ?_, ?_⟩ <;>
    · rintro rfl
      exact absurd hspace (by decide)
  | line body ending =>
    have hbody : lineFeed ∉ body := fun hmem => (hvalid _ hmem).1 rfl
    obtain ⟨hcr, hopen⟩ := hplain
    cases ending with
    | lf => exact strips_lineComment hbody hopen
    | crlf =>
      have hsplit : body ++ LineEnd.crlf.text = (body ++ [13]) ++ [lineFeed] := by
        rw [List.append_assoc]
        rfl
      have hline : lineFeed ∉ body ++ [13] := by
        rw [List.mem_append, not_or]
        exact ⟨hbody, by decide⟩
      rw [hsplit] at hopen
      rw [Trivia.text, List.append_assoc, hsplit, ← List.append_assoc]
      exact strips_lineComment hline hopen
    | cr => exact absurd rfl hcr
  | block body =>
    exact ⟨[unit ' '], passes_block hvalid hplain,
      passes_stripLines (by decide) (by decide) (by decide)⟩

end Strip



section Scripts

/-- Words of small letters, and signs that neither open a comment nor a string. -/
def PlainToken : Token → Prop
  | .word keyword => keyword ≠ [] ∧ ∀ u ∈ keyword, 97 ≤ u.val ∧ u.val ≤ 122
  | .name text => PlainName text
  | .punct u => u ∈ js "(),.;"

def cleanSpaces (trivia : List Trivia) : JsString := trivia.flatMap cleanTrivia

def cleanItem (item : Token × List Trivia) : JsString := item.1.text ++ cleanSpaces item.2

/-- The script with white space for each separator. -/
def cleanText (script : Script) : JsString :=
  cleanSpaces script.leading ++ script.items.flatMap cleanItem

theorem quiet_token {token canonical : Token} (h : token.Spells canonical)
    (hplain : PlainToken canonical) : Quiet token.text := by
  cases token with
  | word spelling =>
    cases canonical with
    | word keyword =>
      refine quiet_word fun u hu => ?_
      have hlower : asciiLowerUnit u ∈ keyword := by
        rw [← show asciiLower spelling = keyword from h]
        exact List.mem_map_of_mem hu
      have hletter := hplain.2 _ hlower
      refine ⟨?_, ?_, ?_⟩ <;>
      · rintro rfl
        exact absurd hletter (by decide)
    | name text => cases h
    | punct u => cases h
  | name text =>
    obtain rfl : Token.name text = canonical := by cases canonical <;> exact h
    exact quiet_name hplain
  | punct u =>
    obtain rfl : Token.punct u = canonical := by cases canonical <;> exact h
    have hsign : u ∈ js "(),.;" := hplain
    refine quiet_singleton ⟨?_, ?_, ?_⟩ <;>
    · rintro rfl
      exact absurd hsign (by decide)

theorem exists_of_forall₂ {α β : Type*} {R : α → β → Prop} {xs : List α} {ys : List β}
    (h : List.Forall₂ R xs ys) {x : α} (hx : x ∈ xs) : ∃ y ∈ ys, R x y := by
  induction h with
  | nil => cases hx
  | cons hxy _ ih =>
    rcases List.mem_cons.mp hx with rfl | hx
    · exact ⟨_, List.mem_cons_self, hxy⟩
    · obtain ⟨y, hy, hrel⟩ := ih hx
      exact ⟨y, List.mem_cons_of_mem _ hy, hrel⟩

theorem mem_withoutBlockComments {inComment : Bool} {text : JsString} {u : CodeUnit}
    (h : u ∈ withoutBlockComments inComment text) : u ∈ text ∨ u = unit ' ' := by
  induction inComment, text using withoutBlockComments.induct with
  | case1 v w text hclose ih =>
    rw [withoutBlockComments, if_pos rfl, if_pos hclose] at h
    exact (ih h).imp_left (by simp +contextual)
  | case2 v w text hclose ih =>
    rw [withoutBlockComments, if_pos rfl, if_neg hclose] at h
    exact (ih h).imp_left (List.mem_cons_of_mem _)
  | case3 inComment v w text hout hopen ih =>
    rw [withoutBlockComments, if_neg hout, if_pos hopen] at h
    rcases List.mem_cons.mp h with rfl | h
    · exact .inr rfl
    · exact (ih h).imp_left (by simp +contextual)
  | case4 inComment v w text hout hopen ih =>
    rw [withoutBlockComments, if_neg hout, if_neg hopen] at h
    rcases List.mem_cons.mp h with rfl | h
    · exact .inl List.mem_cons_self
    · exact (ih h).imp_left (List.mem_cons_of_mem _)
  | case5 v => cases h
  | case6 v => exact .inl h
  | case7 inComment => cases inComment <;> cases h

theorem stripSqlComments_text {script : Script} {tokens : List Token}
    (htokens : List.Forall₂ Token.Spells (script.items.map Prod.fst) tokens)
    (hplain : ∀ token ∈ tokens, PlainToken token)
    (hvalid : ∀ trivia ∈ script.leading ++ script.items.flatMap Prod.snd,
      trivia.Valid ∧ PlainTrivia trivia)
    (hlast : ∀ body ∈ script.last, lineFeed ∉ body) :
    stripSqlComments script.text = cleanText script := by
  have hspaces : ∀ trivia ∈ script.leading ++ script.items.flatMap Prod.snd,
      Strips trivia.text (cleanTrivia trivia) := fun trivia hmem =>
    strips_trivia (hvalid trivia hmem).1 (hvalid trivia hmem).2
  have hleading : Strips (triviaText script.leading) (cleanSpaces script.leading) :=
    Strips.flatMap fun trivia hmem => hspaces trivia (List.mem_append_left _ hmem)
  have hitems : Strips (script.items.flatMap itemText) (script.items.flatMap cleanItem) := by
    refine Strips.flatMap fun item hitem => Strips.append ?_ ?_
    · obtain ⟨token, htoken, hspells⟩ := exists_of_forall₂ htokens (List.mem_map_of_mem hitem)
      exact (quiet_token hspells (hplain token htoken)).strips
    · refine Strips.flatMap fun trivia hmem => hspaces trivia (List.mem_append_right _ ?_)
      exact List.mem_flatMap.mpr ⟨item, hitem, hmem⟩
  obtain ⟨mid, hblock, hline⟩ := hleading.append hitems
  have hstrip : stripSqlComments script.text = stripLines (withoutBlockComments false
    script.text) := rfl
  rw [hstrip, Script.text, hblock, hline, cleanText]
  cases hbody : script.last with
  | none => exact List.append_nil _
  | some body =>
    have hdashes : Passes (withoutBlockComments false) (js "--") (js "--") :=
      passes_withoutBlockComments (by decide) (by decide)
    have hfeed : lineFeed ∉ withoutBlockComments false body := fun hmem =>
      (mem_withoutBlockComments hmem).elim (hlast body hbody) fun heq => absurd heq (by decide)
    rw [Option.elim_some, hdashes, stripLines_last hfeed, List.append_nil]

end Scripts

end Appspine.MigrationStrip
