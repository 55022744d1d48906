import Appspine.JsNumerals

/-!
# Scripts of index statements

`CREATE INDEX` and `DROP INDEX` as PostgreSQL reads them: keywords in any case of letters, quoted
names, and white space and comments wherever two tokens meet. A script is executed on the indexes
that there are.
-/
namespace Appspine.SqlScript
open JsText

section Text

def doubleQuote : CodeUnit := unit '\x22'

/-- How a line comment ends. -/
inductive LineEnd where
  | lf
  | crlf
  | cr
  deriving DecidableEq

def LineEnd.text : LineEnd → JsString
  | .lf => [10]
  | .crlf => [13, 10]
  | .cr => [13]

/-- What may stand between two tokens. -/
inductive Trivia where
  | space (u : CodeUnit)
  | line (body : JsString) (ending : LineEnd)
  | block (body : JsString)
  deriving DecidableEq

def isSqlSpace (u : CodeUnit) : Bool := decide (9 ≤ u.val ∧ u.val ≤ 13 ∨ u.val = 32)

/-- The text after a block comment of which so many levels are open; comments nest. -/
def commentRest : ℕ → JsString → Option JsString
  | 0, text => some text
  | _ + 1, [] => none
  | _ + 1, [_] => none
  | depth + 1, u :: v :: text =>
    if u = unit '/' ∧ v = unit '*' then commentRest (depth + 2) text
    else if u = unit '*' ∧ v = unit '/' then commentRest depth text
    else commentRest (depth + 1) (v :: text)

def Trivia.text : Trivia → JsString
  | .space u => [u]
  | .line body ending => js "--" ++ body ++ ending.text
  | .block body => js "/*" ++ body ++ js "*/"

/-- One separator: a space, a comment to the end of its line, or a whole block comment. -/
def Trivia.Valid : Trivia → Prop
  | .space u => isSqlSpace u = true
  | .line body _ => ∀ u ∈ body, u ≠ 10 ∧ u ≠ 13
  | .block body => commentRest 1 (body ++ js "*/") = some []

instance (trivia : Trivia) : Decidable trivia.Valid :=
  match trivia with
  | .space u => inferInstanceAs (Decidable (isSqlSpace u = true))
  | .line body _ => inferInstanceAs (Decidable (∀ u ∈ body, u ≠ 10 ∧ u ≠ 13))
  | .block body => inferInstanceAs (Decidable (commentRest 1 (body ++ js "*/") = some []))

inductive Token where
  | word (spelling : JsString)
  | name (text : JsString)
  | punct (u : CodeUnit)
  deriving DecidableEq

def Token.text : Token → JsString
  | .word spelling => spelling
  | .name text =>
    doubleQuote :: text.flatMap (fun u => if u = doubleQuote then [u, u] else [u]) ++ [doubleQuote]
  | .punct u => [u]

/-- The keyword may be spelled in any case of letters. -/
def Token.Spells : Token → Token → Prop
  | .word spelling, .word keyword => asciiLower spelling = keyword
  | t, t' => t = t'

instance (t t' : Token) : Decidable (t.Spells t') :=
  match t, t' with
  | .word spelling, .word keyword => inferInstanceAs (Decidable (asciiLower spelling = keyword))
  | .word spelling, .name text => inferInstanceAs (Decidable (Token.word spelling = .name text))
  | .word spelling, .punct u => inferInstanceAs (Decidable (Token.word spelling = .punct u))
  | .name text, t' => inferInstanceAs (Decidable (Token.name text = t'))
  | .punct u, t' => inferInstanceAs (Decidable (Token.punct u = t'))

/-- Tokens with what follows each, after some separators, and a line comment that ends the text. -/
structure Script where
  leading : List Trivia
  items : List (Token × List Trivia)
  last : Option JsString

def triviaText (trivia : List Trivia) : JsString := trivia.flatMap Trivia.text

def itemText (item : Token × List Trivia) : JsString := item.1.text ++ triviaText item.2

def Script.text (script : Script) : JsString :=
  triviaText script.leading ++ script.items.flatMap itemText ++
    script.last.elim [] (fun body => js "--" ++ body)

end Text

section Statements

inductive Direction where
  | asc
  | desc
  deriving DecidableEq

inductive NullsOrder where
  | first
  | last
  deriving DecidableEq

/-- A column of an index, with its sort modifiers. -/
structure Column where
  name : JsString
  direction : Option Direction
  nulls : Option NullsOrder
  deriving DecidableEq

/-- A name with the schema before it, if it is written. -/
structure QualifiedName where
  schemaName : Option JsString
  name : JsString
  deriving DecidableEq

inductive DropBehavior where
  | cascade
  | restrict
  deriving DecidableEq

inductive Statement where
  | createIndex (name : JsString) (table : QualifiedName) (columns : List Column)
  | dropIndex (concurrently ifExists : Bool) (names : List QualifiedName)
      (behavior : Option DropBehavior)
  deriving DecidableEq

def keyword (text : String) : Token := .word (js text)

def QualifiedName.tokens (name : QualifiedName) : List Token :=
  match name.schemaName with
  | none => [.name name.name]
  | some schemaName => [.name schemaName, .punct (unit '.'), .name name.name]

def Column.modifiers (column : Column) : List Token :=
  (match column.direction with
    | none => []
    | some .asc => [keyword "asc"]
    | some .desc => [keyword "desc"]) ++
  match column.nulls with
    | none => []
    | some .first => [keyword "nulls", keyword "first"]
    | some .last => [keyword "nulls", keyword "last"]

def Column.tokens (column : Column) : List Token := .name column.name :: column.modifiers

/-- The tokens of each entry, with commas in between. -/
def listed : List (List Token) → List Token
  | [] => []
  | [tokens] => tokens
  | tokens :: rest => tokens ++ .punct (unit ',') :: listed rest

def DropBehavior.tokens : DropBehavior → List Token
  | .cascade => [keyword "cascade"]
  | .restrict => [keyword "restrict"]

def Statement.tokens : Statement → List Token
  | .createIndex name table columns =>
    [keyword "create", keyword "index", .name name, keyword "on"] ++ table.tokens ++
      .punct (unit '(') :: listed (columns.map Column.tokens) ++ [.punct (unit ')')]
  | .dropIndex concurrently ifExists names behavior =>
    [keyword "drop", keyword "index"] ++
      (if concurrently then [keyword "concurrently"] else []) ++
      (if ifExists then [keyword "if", keyword "exists"] else []) ++
      listed (names.map QualifiedName.tokens) ++ behavior.elim [] DropBehavior.tokens

/-- The statements, each with its semicolon, which the last need not have. -/
def scriptTokens (closed : Bool) : List Statement → List Token
  | [] => []
  | [statement] => statement.tokens ++ if closed then [.punct (unit ';')] else []
  | statement :: rest => statement.tokens ++ .punct (unit ';') :: scriptTokens closed rest

/-- Names are not empty, and lists have entries. -/
def Statement.Valid : Statement → Prop
  | .createIndex name table columns =>
    name ≠ [] ∧ table.name ≠ [] ∧ (∀ schemaName ∈ table.schemaName, schemaName ≠ []) ∧
      columns ≠ [] ∧ ∀ column ∈ columns, column.name ≠ []
  | .dropIndex _ _ names _ =>
    names ≠ [] ∧ ∀ name ∈ names, name.name ≠ [] ∧ ∀ schemaName ∈ name.schemaName, schemaName ≠ []

instance (statement : Statement) : Decidable statement.Valid :=
  match statement with
  | .createIndex name table columns => inferInstanceAs (Decidable
      (name ≠ [] ∧ table.name ≠ [] ∧ (∀ schemaName ∈ table.schemaName, schemaName ≠ []) ∧
        columns ≠ [] ∧ ∀ column ∈ columns, column.name ≠ []))
  | .dropIndex _ _ names _ => inferInstanceAs (Decidable (names ≠ [] ∧
      ∀ name ∈ names, name.name ≠ [] ∧ ∀ schemaName ∈ name.schemaName, schemaName ≠ []))

/-- Tokens of these kinds have something in between. -/
def Apart (needsSpace : Token → Token → Bool) (items : List (Token × List Trivia)) : Prop :=
  items.IsChain (fun item next => needsSpace item.1 next.1 = true → item.2 ≠ [])

instance (needsSpace : Token → Token → Bool) (items : List (Token × List Trivia)) :
    Decidable (Apart needsSpace items) :=
  inferInstanceAs (Decidable (items.IsChain
    (fun item next => needsSpace item.1 next.1 = true → item.2 ≠ [])))

/-- Two words would be one. -/
def bothWords : Token → Token → Bool
  | .word _, .word _ => true
  | _, _ => false

/-- The text of the script is one of the statements. -/
structure Script.Writes (script : Script) (closed : Bool) (statements : List Statement) : Prop where
  tokens : List.Forall₂ Token.Spells (script.items.map Prod.fst) (scriptTokens closed statements)
  statements : ∀ statement ∈ statements, statement.Valid
  apart : Apart bothWords script.items
  leading : ∀ trivia ∈ script.leading, trivia.Valid
  trivia : ∀ item ∈ script.items, ∀ trivia ∈ item.2, trivia.Valid
  last : ∀ body ∈ script.last, ∀ u ∈ body, u ≠ 10 ∧ u ≠ 13

end Statements

section Logs

variable {σ ι α : Type*} {step : σ → ι → Option σ} {holds : σ → α → Prop}
  {adds removes : ι → α → Prop}

/-- Whatever is there at the end was there or added, and not removed afterwards. -/
theorem holds_foldlM_iff
    (hstep : ∀ s i s', step s i = some s' → ∀ x, holds s' x ↔ holds s x ∧ ¬ removes i x ∨ adds i x)
    {items : List ι} {s s' : σ} (h : items.foldlM step s = some s') (x : α) :
    holds s' x ↔ holds s x ∧ (∀ i ∈ items, ¬ removes i x) ∨
      ∃ before i after, items = before ++ i :: after ∧ adds i x ∧ ∀ j ∈ after, ¬ removes j x := by
  induction items generalizing s with
  | nil =>
    obtain rfl : s = s' := Option.some.inj h
    simp
  | cons i items ih =>
    rw [List.foldlM_cons, Option.bind_eq_bind, Option.bind_eq_some_iff] at h
    obtain ⟨mid, hmid, h⟩ := h
    rw [ih h, hstep s i mid hmid x]
    constructor
    · rintro (⟨⟨hs, hi⟩ | hi, hrest⟩ | ⟨before, j, after, rfl, hj, hrest⟩)
      · exact .inl ⟨hs, List.forall_mem_cons.mpr ⟨hi, hrest⟩⟩
      · exact .inr ⟨[], i, items, rfl, hi, hrest⟩
      · exact .inr ⟨i :: before, j, after, rfl, hj, hrest⟩
    · rintro (⟨hs, hall⟩ | ⟨before, j, after, hsplit, hj, hrest⟩)
      · obtain ⟨hi, hrest⟩ := List.forall_mem_cons.mp hall
        exact .inl ⟨.inl ⟨hs, hi⟩, hrest⟩
      · cases before with
        | nil =>
          obtain ⟨rfl, rfl⟩ := List.cons.inj hsplit
          exact .inl ⟨.inr hj, hrest⟩
        | cons k before =>
          obtain ⟨rfl, rfl⟩ := List.cons.inj hsplit
          exact .inr ⟨before, j, after, rfl, hj, hrest⟩

end Logs

section Execution

structure Index where
  schemaName : JsString
  name : JsString
  table : JsString
  columns : List JsString
  deriving DecidableEq

variable (searchPath : JsString)

/-- The schema that a name is in, which is the one of the search path when none is written. -/
def QualifiedName.schema (name : QualifiedName) : JsString := name.schemaName.getD searchPath

def Index.isNamed (index : Index) (name : QualifiedName) : Bool :=
  decide (index.schemaName = name.schema searchPath ∧ index.name = name.name)

/-- The index that a statement creates. -/
def Statement.index? : Statement → Option Index
  | .createIndex name table columns =>
    some { schemaName := table.schema searchPath, name := name, table := table.name,
           columns := columns.map Column.name }
  | .dropIndex _ _ _ _ => none

def Statement.drops (index : Index) : Statement → Bool
  | .createIndex _ _ _ => false
  | .dropIndex _ _ names _ => names.any (fun name => index.isNamed searchPath name)

/-- Whether a statement fails: for a name that is taken or missing, and for a concurrent drop of
several names or with `CASCADE`. -/
def Statement.fails (live : List Index) : Statement → Bool
  | .createIndex name table _ =>
    live.any (fun index => index.isNamed searchPath { table with name := name })
  | .dropIndex concurrently ifExists names behavior =>
    decide (concurrently ∧ (1 < names.length ∨ behavior = some .cascade)) ||
      (!ifExists && names.any (fun name =>
        !live.any (fun index => index.isNamed searchPath name)))

/-- The indexes after a statement. -/
def Statement.execute (live : List Index) (statement : Statement) : Option (List Index) :=
  if statement.fails searchPath live then none
  else some (live.filter (fun index => !statement.drops searchPath index) ++
    (statement.index? searchPath).toList)

def executeAll (live : List Index) (statements : List Statement) : Option (List Index) :=
  statements.foldlM (Statement.execute searchPath) live

/-- The index is there before the statements, or one creates it, and none drops it after that. -/
def Stays (initial : List Index) (statements : List Statement) (index : Index) : Prop :=
  index ∈ initial ∧ (∀ statement ∈ statements, ¬ statement.drops searchPath index) ∨
    ∃ before statement after, statements = before ++ statement :: after ∧
      statement.index? searchPath = some index ∧
      ∀ later ∈ after, ¬ later.drops searchPath index

theorem mem_execute_iff {live live' : List Index} {statement : Statement}
    (h : statement.execute searchPath live = some live') (index : Index) :
    index ∈ live' ↔ index ∈ live ∧ ¬ statement.drops searchPath index ∨
      statement.index? searchPath = some index := by
  rw [Statement.execute] at h
  split_ifs at h
  obtain rfl := Option.some.inj h
  simp

theorem mem_executeAll_iff {initial live : List Index} {statements : List Statement}
    (h : executeAll searchPath initial statements = some live) (index : Index) :
    index ∈ live ↔ Stays searchPath initial statements index :=
  @holds_foldlM_iff _ _ _ (Statement.execute searchPath) (fun live index => index ∈ live)
    (fun statement index => statement.index? searchPath = some index)
    (fun statement index => statement.drops searchPath index = true)
    (fun _ _ _ hexecute index => mem_execute_iff searchPath hexecute index) _ _ _ h index

end Execution

end Appspine.SqlScript
