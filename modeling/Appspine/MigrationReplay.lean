import Appspine.MigrationStatements

/-!
# The indexes that a migration leaves

What the replay keeps by name after the statements of a script, beside the indexes that are live
in the database. A drop that the scan does not read, or reads in part, tells the two apart.
-/
namespace Appspine.MigrationReplay
open JsText InsertionMap SqlScript MigrationScan MigrationStrip MigrationStatements

section Kept

variable (t : JsString)

/-- The columns as the metadata names them. -/
def camelColumns (columns : List Column) : List JsString :=
  columns.map (fun column => snakeToCamel column.name)

/-- What the scan makes of a statement. -/
def keep (kept : Entries JsString (List JsString)) : Statement → Entries JsString (List JsString)
  | .createIndex name table columns =>
    if table.name = t then InsertionMap.set kept name (camelColumns columns) else kept
  | .dropIndex false _ (name :: _) _ => kept.filter (fun e => e.1 ≠ name.name)
  | .dropIndex _ _ _ _ => kept

/-- The statement takes the name off the list, or puts other columns under it. -/
def unlists (name : JsString) : Statement → Bool
  | .createIndex created table _ => decide (created = name ∧ table.name = t)
  | .dropIndex false _ (dropped :: _) _ => decide (dropped.name = name)
  | .dropIndex _ _ _ _ => false

/-- The statement puts the entry on the list. -/
def lists (e : JsString × List JsString) : Statement → Prop
  | .createIndex name table columns => table.name = t ∧ e = (name, camelColumns columns)
  | .dropIndex _ _ _ _ => False

theorem mem_set_iff {m : Entries JsString (List JsString)} {k : JsString} {v : List JsString}
    {e : JsString × List JsString} :
    e ∈ InsertionMap.set m k v ↔ e ∈ m ∧ e.1 ≠ k ∨ e = (k, v) := by
  rw [InsertionMap.set]
  split_ifs with hk
  · rw [List.mem_map]
    constructor
    · rintro ⟨e', he', rfl⟩
      by_cases hkey : e'.1 = k
      · exact .inr (if_pos hkey)
      · rw [if_neg hkey]
        exact .inl ⟨he', hkey⟩
    · rintro (⟨he, hkey⟩ | rfl)
      · exact ⟨e, he, if_neg hkey⟩
      · obtain ⟨e', he', hkey⟩ := List.mem_map.mp hk
        exact ⟨e', he', if_pos hkey⟩
  · rw [List.mem_append, List.mem_singleton]
    constructor
    · rintro (he | rfl)
      · refine .inl ⟨he, ?_⟩
        rintro rfl
        exact hk (List.mem_map_of_mem he)
      · exact .inr rfl
    · exact Or.imp_left And.left

theorem mem_keep_iff (kept : Entries JsString (List JsString)) (statement : Statement)
    (e : JsString × List JsString) :
    e ∈ keep t kept statement ↔ e ∈ kept ∧ ¬ unlists t e.1 statement ∨ lists t e statement := by
  cases statement with
  | createIndex name table columns =>
    rw [keep, unlists, lists]
    by_cases htable : table.name = t
    · rw [if_pos htable, mem_set_iff]
      simp [htable, eq_comm]
    · rw [if_neg htable]
      simp [htable]
  | dropIndex concurrently ifExists names behavior =>
    cases concurrently with
    | true => simp [keep, unlists, lists]
    | false =>
      cases names with
      | nil => simp [keep, unlists, lists]
      | cons name names =>
        simp only [keep, unlists, lists, List.mem_filter, or_false, decide_eq_true_eq, ne_eq]
        exact and_congr_right fun _ => not_congr eq_comm

/-- An index that some statement creates on the table, and that the scan still lists at the end. -/
def Listed (searchPath : JsString) (statements : List Statement) (index : Index) : Prop :=
  ∃ before statement after, statements = before ++ statement :: after ∧
    statement.index? searchPath = some index ∧ index.table = t ∧
    ∀ later ∈ after, ¬ unlists t index.name later

theorem mem_foldl_keep_iff (searchPath : JsString) (statements : List Statement)
    (e : JsString × List JsString) :
    e ∈ statements.foldl (keep t) [] ↔ ∃ index, Listed t searchPath statements index ∧
      index.name = e.1 ∧ index.columns.map snakeToCamel = e.2 := by
  have hrun := @holds_foldlM_iff _ _ _ (fun kept statement => some (keep t kept statement))
    (fun kept e => e ∈ kept) (fun statement e => lists t e statement)
    (fun statement e => unlists t e.1 statement = true)
    (fun kept statement _ hkeep e => Option.some.inj hkeep ▸ mem_keep_iff t kept statement e)
    statements [] (statements.foldl (keep t) []) List.foldlM_pure e
  rw [hrun]
  constructor
  · rintro (⟨hnil, -⟩ | ⟨before, statement, after, rfl, hlists, hafter⟩)
    · cases hnil
    · cases statement with
      | createIndex name table columns =>
        obtain ⟨htable, rfl⟩ := hlists
        refine ⟨_, ⟨before, _, after, rfl, rfl, htable, hafter⟩, rfl, ?_⟩
        exact List.map_map
      | dropIndex concurrently ifExists names behavior => cases hlists
  · rintro ⟨index, ⟨before, statement, after, rfl, hindex, htable, hafter⟩, hname, hcolumns⟩
    cases statement with
    | createIndex name table columns =>
      obtain rfl := Option.some.inj hindex
      refine .inr ⟨before, _, after, rfl, ⟨htable, Prod.ext hname.symm ?_⟩, hname ▸ hafter⟩
      rw [← hcolumns]
      exact List.map_map
    | dropIndex concurrently ifExists names behavior => cases hindex

end Kept

section Scan

variable (toLowerCase : JsString → JsString) (t : JsString)

/-- The names of a drop that the scan does not look at. -/
def unreadNames : Statement → List QualifiedName
  | .createIndex _ _ _ => []
  | .dropIndex true _ names _ => names
  | .dropIndex false _ names _ => names.tail

/-- The names inside of a statement that the scan could mistake for something else: columns with
the signs that end a field, and tables that differ from this one in case only. -/
structure ReadableStatement (statement : Statement) : Prop where
  columns : ∀ name table columns, statement = .createIndex name table columns →
    ∀ column ∈ columns, Plainly column.name
  table : ∀ name table columns, statement = .createIndex name table columns →
    toLowerCase table.name = toLowerCase t → table.name = t
  unread : ∀ name ∈ unreadNames statement, QualifiedName.PassedOver name

variable {toLowerCase t} {statement : Statement} {tokens : List Token} {text : JsString}

theorem foldl_statement (hne : t ≠ []) (hread : ReadableStatement toLowerCase t statement)
    (hvalid : statement.Valid) (h : Renders (statement.tokens ++ tokens) text)
    (hend : tokens.head? ≠ some (.punct (unit '.'))) :
    ∃ text', Renders tokens text' ∧ ∀ kept,
      (matchAll 0 text).foldl (replay toLowerCase (some t)) kept =
        (matchAll 0 text').foldl (replay toLowerCase (some t)) (keep t kept statement) := by
  cases statement with
  | createIndex name table columns =>
    obtain ⟨fields, text', h', hmatch, hparse⟩ :=
      matchAll_create h hvalid (hread.columns name table columns rfl)
    refine ⟨text', h', fun kept => ?_⟩
    rw [hmatch, List.foldl_cons]
    congr 1
    rw [replay, keep, hparse]
    by_cases htable : table.name = t
    · rw [if_pos htable, if_neg]
      · rfl
      · rintro ⟨tableName, hname, -, hdiffer⟩
        obtain rfl := Option.some.inj hname
        exact hdiffer (by rw [htable])
    · rw [if_neg htable, if_pos ⟨t, rfl, hne, fun hlower =>
        htable (hread.table name table columns rfl hlower)⟩]
  | dropIndex concurrently ifExists names behavior =>
    cases concurrently with
    | true =>
      obtain ⟨text', h', hmatch⟩ := matchAll_concurrently h hread.unread
      exact ⟨text', h', fun kept => by rw [hmatch]; rfl⟩
    | false =>
      cases names with
      | nil => exact absurd rfl hvalid.1
      | cons name names =>
        obtain ⟨text', h', hmatch⟩ := matchAll_drop h hvalid hread.unread hend
        exact ⟨text', h', fun kept => by rw [hmatch]; rfl⟩

/-- The scan of the whole text keeps what it makes of the statements, one after another. -/
theorem foldl_script {closed : Bool} {statements : List Statement} (hne : t ≠ [])
    (hread : ∀ statement ∈ statements, ReadableStatement toLowerCase t statement)
    (hvalid : ∀ statement ∈ statements, statement.Valid)
    (h : Renders (scriptTokens closed statements) text)
    (kept : Entries JsString (List JsString)) :
    (matchAll 0 text).foldl (replay toLowerCase (some t)) kept =
      statements.foldl (keep t) kept := by
  induction statements generalizing text kept with
  | nil =>
    obtain rfl : text = [] := h
    rfl
  | cons statement statements ih =>
    have hsemicolon : Inert (.punct (unit ';')) := trivial
    cases statements with
    | nil =>
      rw [scriptTokens] at h
      obtain ⟨text', h', hfold⟩ := foldl_statement hne (hread statement (by simp))
        (hvalid statement (by simp)) h (by cases closed <;> simp [unit])
      rw [hfold, List.foldl_cons]
      cases closed with
      | false =>
        obtain rfl : text' = [] := h'
        rfl
      | true =>
        obtain ⟨text'', h'', hskip⟩ := Renders.skip h' hsemicolon
        obtain rfl : text'' = [] := h''
        rw [hskip]
        rfl
    | cons next statements =>
      have htokens : scriptTokens closed (statement :: next :: statements) =
          statement.tokens ++ .punct (unit ';') :: scriptTokens closed (next :: statements) := rfl
      rw [htokens] at h
      obtain ⟨text', h', hfold⟩ := foldl_statement hne (hread statement (by simp))
        (hvalid statement (by simp)) h (by simp [unit])
      obtain ⟨text'', h'', hskip⟩ := Renders.skip h' hsemicolon
      rw [hfold, List.foldl_cons, hskip]
      exact ih (fun s hs => hread s (List.mem_cons_of_mem _ hs))
        (fun s hs => hvalid s (List.mem_cons_of_mem _ hs)) h'' _

end Scan

section Tokens

/-- A name, or a token that is the same in every script. -/
def Fixed : Token → Prop
  | .name _ => True
  | .word keyword => PlainToken (.word keyword)
  | .punct u => PlainToken (.punct u)

theorem fixed_keyword {text : String}
    (h : js text ≠ [] ∧ (js text).all (fun u => decide (97 ≤ u.val ∧ u.val ≤ 122)) = true) :
    Fixed (keyword text) :=
  ⟨h.1, fun u hu => of_decide_eq_true (List.all_eq_true.mp h.2 u hu)⟩

theorem fixed_punct {u : CodeUnit} (h : u ∈ js "(),.;") : Fixed (.punct u) := h

theorem fixed_cons {token : Token} {tokens : List Token} (h : Fixed token)
    (hrest : ∀ t ∈ tokens, Fixed t) : ∀ t ∈ token :: tokens, Fixed t :=
  List.forall_mem_cons.mpr ⟨h, hrest⟩

theorem fixed_append {tokens tokens' : List Token} (h : ∀ t ∈ tokens, Fixed t)
    (h' : ∀ t ∈ tokens', Fixed t) : ∀ t ∈ tokens ++ tokens', Fixed t :=
  List.forall_mem_append.mpr ⟨h, h'⟩

theorem fixed_nil : ∀ t ∈ ([] : List Token), Fixed t := List.forall_mem_nil _

theorem fixed_listed {lists : List (List Token)} (h : ∀ tokens ∈ lists, ∀ t ∈ tokens, Fixed t) :
    ∀ t ∈ listed lists, Fixed t := by
  intro token htoken
  rcases mem_listed htoken with rfl | ⟨tokens, htokens, hmem⟩
  · exact fixed_punct (by decide)
  · exact h tokens htokens token hmem

theorem fixed_qualifiedName (name : QualifiedName) : ∀ t ∈ name.tokens, Fixed t := by
  obtain ⟨schemaName, name⟩ := name
  cases schemaName with
  | none => exact fixed_cons trivial fixed_nil
  | some schemaName =>
    exact fixed_cons trivial (fixed_cons (fixed_punct (by decide)) (fixed_cons trivial fixed_nil))

theorem fixed_modifiers (column : Column) : ∀ t ∈ column.modifiers, Fixed t := by
  obtain ⟨name, direction, nulls⟩ := column
  refine fixed_append ?_ ?_
  · rcases direction with _ | _ | _
    · exact fixed_nil
    · exact fixed_cons (fixed_keyword (by decide)) fixed_nil
    · exact fixed_cons (fixed_keyword (by decide)) fixed_nil
  · rcases nulls with _ | _ | _
    · exact fixed_nil
    · exact fixed_cons (fixed_keyword (by decide)) (fixed_cons (fixed_keyword (by decide)) fixed_nil)
    · exact fixed_cons (fixed_keyword (by decide)) (fixed_cons (fixed_keyword (by decide)) fixed_nil)

theorem fixed_statement (statement : Statement) : ∀ t ∈ statement.tokens, Fixed t := by
  cases statement with
  | createIndex name table columns =>
    have hcolumns : ∀ t ∈ listed (columns.map Column.tokens), Fixed t := by
      refine fixed_listed fun tokens htokens => ?_
      obtain ⟨column, -, rfl⟩ := List.mem_map.mp htokens
      exact fixed_cons trivial (fixed_modifiers column)
    have hstart : ∀ t ∈ [keyword "create", keyword "index", .name name, keyword "on"], Fixed t :=
      fixed_cons (fixed_keyword (by decide)) (fixed_cons (fixed_keyword (by decide))
        (fixed_cons trivial (fixed_cons (fixed_keyword (by decide)) fixed_nil)))
    exact fixed_append (fixed_append (fixed_append hstart (fixed_qualifiedName table))
      (fixed_cons (fixed_punct (by decide)) hcolumns)) (fixed_cons (fixed_punct (by decide)) fixed_nil)
  | dropIndex concurrently ifExists names behavior =>
    have hnames : ∀ t ∈ listed (names.map QualifiedName.tokens), Fixed t := by
      refine fixed_listed fun tokens htokens => ?_
      obtain ⟨name, -, rfl⟩ := List.mem_map.mp htokens
      exact fixed_qualifiedName name
    refine fixed_append (fixed_append (fixed_append (fixed_append ?_ ?_) ?_) hnames) ?_
    · exact fixed_cons (fixed_keyword (by decide)) (fixed_cons (fixed_keyword (by decide)) fixed_nil)
    · cases concurrently with
      | false => exact fixed_nil
      | true => exact fixed_cons (fixed_keyword (by decide)) fixed_nil
    · cases ifExists with
      | false => exact fixed_nil
      | true =>
        exact fixed_cons (fixed_keyword (by decide)) (fixed_cons (fixed_keyword (by decide)) fixed_nil)
    · rcases behavior with _ | _ | _
      · exact fixed_nil
      · exact fixed_cons (fixed_keyword (by decide)) fixed_nil
      · exact fixed_cons (fixed_keyword (by decide)) fixed_nil

theorem fixed_script (closed : Bool) (statements : List Statement) :
    ∀ t ∈ scriptTokens closed statements, Fixed t := by
  induction statements with
  | nil => exact fixed_nil
  | cons statement statements ih =>
    cases statements with
    | nil =>
      refine fixed_append (fixed_statement statement) ?_
      cases closed with
      | false => exact fixed_nil
      | true => exact fixed_cons (fixed_punct (by decide)) fixed_nil
    | cons next statements =>
      exact fixed_append (fixed_statement statement) (fixed_cons (fixed_punct (by decide)) ih)

theorem plainToken_script {closed : Bool} {statements : List Statement}
    (h : ∀ name, .name name ∈ scriptTokens closed statements → PlainName name) :
    ∀ token ∈ scriptTokens closed statements, PlainToken token := by
  intro token htoken
  have hfixed := fixed_script closed statements token htoken
  cases token with
  | name name => exact h name htoken
  | word keyword => exact hfixed
  | punct u => exact hfixed

end Tokens

section Migrations

variable (toLowerCase : JsString → JsString) (searchPath t : JsString)

/-- A script that the scan takes for what it is: no name or comment misleads it, and white space
is where its pattern wants some. -/
structure Readable (script : Script) (closed : Bool) (statements : List Statement) : Prop where
  table : t ≠ []
  names : ∀ name, .name name ∈ scriptTokens closed statements → PlainName name
  statements : ∀ statement ∈ statements, ReadableStatement toLowerCase t statement
  trivia : ∀ trivia ∈ script.leading ++ script.items.flatMap Prod.snd, PlainTrivia trivia
  apart : Apart partedAlike script.items

/-- Every index in the metadata of a migration is one on the table, with its columns in order. -/
def ListsLive (text : JsString) (live : List Index) : Prop :=
  ∀ listing ∈ migrationIndexes toLowerCase text (some t), ∀ fields ∈ listing,
    ∃ index ∈ live, index.table = t ∧ index.columns.map snakeToCamel = fields

variable {toLowerCase searchPath t}

theorem spaces_of_trim {text : JsString} (h : trim text = []) : Spaces text := by
  rw [trim, List.reverse_eq_nil_iff, List.dropWhile_eq_nil_iff] at h
  intro u hu
  have hsplit : u ∈ text.takeWhile isWhiteSpace ++ text.dropWhile isWhiteSpace := by
    rwa [List.takeWhile_append_dropWhile]
  rcases List.mem_append.mp hsplit with hu | hu
  · exact List.mem_takeWhile_imp hu
  · exact h u (List.mem_reverse.mpr hu)

/-- The scan of a readable script is its statements. -/
theorem foldl_stripped {script : Script} {closed : Bool} {statements : List Statement}
    (hwrites : script.Writes closed statements)
    (hread : Readable toLowerCase t script closed statements) :
    (matchAll 0 (stripSqlComments script.text)).foldl (replay toLowerCase (some t)) [] =
      statements.foldl (keep t) [] := by
  have hplain := plainToken_script hread.names
  have hvalid : ∀ trivia ∈ script.leading ++ script.items.flatMap Prod.snd, trivia.Valid := by
    intro trivia hmem
    rcases List.mem_append.mp hmem with hmem | hmem
    · exact hwrites.leading trivia hmem
    · obtain ⟨item, hitem, hmem⟩ := List.mem_flatMap.mp hmem
      exact hwrites.trivia item hitem trivia hmem
  have hstrip : stripSqlComments script.text = cleanText script :=
    stripSqlComments_text hwrites.tokens hplain
      (fun trivia hmem => ⟨hvalid trivia hmem, hread.trivia trivia hmem⟩)
      fun body hbody hmem => (hwrites.last body hbody _ hmem).1 rfl
  have hrenders := renders_items hwrites.tokens hplain hwrites.trivia hwrites.apart hread.apart
  rw [hstrip, cleanText, passes_spaces (spaces_cleanSpaces hwrites.leading), List.nil_append]
  exact foldl_script hread.table hread.statements hwrites.statements hrenders []

theorem mem_migrationIndexes (searchPath : JsString) {script : Script} {closed : Bool} {statements : List Statement}
    (hwrites : script.Writes closed statements)
    (hread : Readable toLowerCase t script closed statements) (fields : List JsString) :
    (∃ listing ∈ migrationIndexes toLowerCase script.text (some t), fields ∈ listing) ↔
      ∃ index, Listed t searchPath statements index ∧
        index.columns.map snakeToCamel = fields := by
  have hfold := foldl_stripped hwrites hread
  have hkept : (∃ listing ∈ migrationIndexes toLowerCase script.text (some t), fields ∈ listing) ↔
      ∃ name, (name, fields) ∈ statements.foldl (keep t) [] := by
    rw [migrationIndexes]
    split_ifs with hblank
    · have hnothing := passes_spaces (spaces_of_trim hblank) []
      rw [List.append_nil] at hnothing
      rw [hnothing] at hfold
      have hnil : statements.foldl (keep t) [] = [] := hfold.symm
      rw [hnil]
      simp
    · rw [← hfold]
      simp [computeLiveMigrationIndexes]
  rw [hkept]
  constructor
  · rintro ⟨name, hmem⟩
    obtain ⟨index, hlisted, -, hcolumns⟩ :=
      (mem_foldl_keep_iff t searchPath statements (name, fields)).mp hmem
    exact ⟨index, hlisted, hcolumns⟩
  · rintro ⟨index, hlisted, hcolumns⟩
    exact ⟨index.name, (mem_foldl_keep_iff t searchPath statements (index.name, fields)).mpr
      ⟨index, hlisted, rfl, hcolumns⟩⟩

/-- The metadata lists live indexes only exactly when each that stays on the list has one beside it
with its columns that no later statement drops. -/
theorem listsLive_iff {script : Script} {closed : Bool} {statements : List Statement}
    {initial live : List Index} (hwrites : script.Writes closed statements)
    (hread : Readable toLowerCase t script closed statements)
    (hrun : executeAll searchPath initial statements = some live) :
    ListsLive toLowerCase t script.text live ↔
      ∀ index, Listed t searchPath statements index →
        ∃ index', Stays searchPath initial statements index' ∧ index'.table = t ∧
          index'.columns.map snakeToCamel = index.columns.map snakeToCamel := by
  have hlive := mem_executeAll_iff searchPath hrun
  constructor
  · intro h index hlisted
    obtain ⟨listing, hlisting, hfields⟩ :=
      (mem_migrationIndexes searchPath hwrites hread (index.columns.map snakeToCamel)).mpr
        ⟨index, hlisted, rfl⟩
    obtain ⟨index', hmem, htable, hcolumns⟩ := h listing hlisting _ hfields
    exact ⟨index', (hlive index').mp hmem, htable, hcolumns⟩
  · intro h listing hlisting fields hfields
    obtain ⟨index, hlisted, rfl⟩ := (mem_migrationIndexes searchPath hwrites hread fields).mp
      ⟨listing, hlisting, hfields⟩
    obtain ⟨index', hstays, htable, hcolumns⟩ := h index hlisted
    exact ⟨index', (hlive index').mpr hstays, htable, hcolumns⟩

/-- `CREATE INDEX "n" ON "t"("c"); DROP INDEX CONCURRENTLY "n";` -/
def concurrentDrop : Script where
  leading := []
  items := [(.word (js "CREATE"), [.space (unit ' ')]), (.word (js "INDEX"), [.space (unit ' ')]),
    (.name (js "n"), [.space (unit ' ')]), (.word (js "ON"), [.space (unit ' ')]),
    (.name (js "t"), []), (.punct (unit '('), []), (.name (js "c"), []), (.punct (unit ')'), []),
    (.punct (unit ';'), [.space (unit ' ')]), (.word (js "DROP"), [.space (unit ' ')]),
    (.word (js "INDEX"), [.space (unit ' ')]), (.word (js "CONCURRENTLY"), [.space (unit ' ')]),
    (.name (js "n"), []), (.punct (unit ';'), [])]
  last := none

def concurrentStatements : List Statement :=
  [.createIndex (js "n") ⟨none, js "t"⟩ [⟨js "c", none, none⟩],
    .dropIndex true false [⟨none, js "n"⟩] none]

theorem concurrentDrop_writes : concurrentDrop.Writes true concurrentStatements where
  tokens := by decide +kernel
  statements := by decide +kernel
  apart := by decide +kernel
  leading := by decide +kernel
  trivia := by decide +kernel
  last := by decide +kernel

theorem concurrentDrop_readable :
    Readable asciiLower (js "t") concurrentDrop true concurrentStatements where
  table := by decide
  names name hname := by
    have hnames : name = js "n" ∨ name = js "t" ∨ name = js "c" := by
      simp [scriptTokens, concurrentStatements, Statement.tokens, listed, Column.tokens,
        Column.modifiers, QualifiedName.tokens, keyword] at hname
      tauto
    rcases hnames with rfl | rfl | rfl <;>
      exact ⟨by decide, by decide, by decide, by decide⟩
  statements statement hstatement := by
    simp only [concurrentStatements, List.mem_cons, List.not_mem_nil, or_false] at hstatement
    rcases hstatement with rfl | rfl
    · refine ⟨fun name table columns heq => ?_, fun name table columns heq _ => ?_,
        by simp [unreadNames]⟩
      · obtain ⟨-, -, rfl⟩ := Statement.createIndex.inj heq
        simp only [List.mem_singleton, forall_eq]
        exact ⟨by decide, by decide⟩
      · obtain ⟨-, rfl, -⟩ := Statement.createIndex.inj heq
        rfl
    · refine ⟨fun _ _ _ heq => (by cases heq), fun _ _ _ heq => (by cases heq), ?_⟩
      simp only [unreadNames, List.mem_singleton, forall_eq]
      refine ⟨fun u hu => ?_, fun _ hschema => (by cases hschema)⟩
      have hlast : (js "n").getLast? = some (unit 'n') := rfl
      obtain rfl := Option.some.inj (hlast.symm.trans hu)
      decide
  trivia trivia htrivia := by
    have hspace : trivia = .space (unit ' ') := by
      simp [concurrentDrop] at htrivia
      exact htrivia
    rw [hspace]
    trivial
  apart := by decide +kernel

theorem listsLive_iff_concurrentDrop :
    ListsLive asciiLower (js "t") concurrentDrop.text [] ↔
      ∀ index, Listed (js "t") (js "public") concurrentStatements index →
        ∃ index', Stays (js "public") [] concurrentStatements index' ∧ index'.table = js "t" ∧
          index'.columns.map snakeToCamel = index.columns.map snakeToCamel :=
  listsLive_iff concurrentDrop_writes concurrentDrop_readable (by decide +kernel)

/-- The concurrent drop leaves no index, and the metadata lists one. -/
theorem concurrentDrop_listed :
    concurrentDrop.Writes true concurrentStatements ∧
      executeAll (js "public") [] concurrentStatements = some [] ∧
      ¬ ListsLive asciiLower (js "t") concurrentDrop.text [] := by
  refine ⟨concurrentDrop_writes, by decide +kernel, fun h => ?_⟩
  have hlisting : migrationIndexes asciiLower concurrentDrop.text (some (js "t")) =
      some [[js "c"]] := by decide +kernel
  obtain ⟨index, hindex, -⟩ := h _ hlisting _ (List.mem_singleton_self _)
  cases hindex

/-- A drop that is not concurrent and names one index. -/
def Single : Statement → Prop
  | .createIndex _ _ _ => True
  | .dropIndex concurrently _ names _ => concurrently = false ∧ names.length = 1

end Migrations

end Appspine.MigrationReplay
