import Appspine.JsNumerals
import Appspine.InsertionMap

/-!
# The indexes of a migration

`parseNotificationSchemaMetadata` strips the comments of a migration, finds the statements in it
that create or drop an index by one regular expression, and replays them.
-/
namespace Appspine.MigrationScan
open JsText InsertionMap

section Comments

def lineFeed : CodeUnit := 10

/-- The text after the next `*/`. -/
def afterClose : JsString → Option JsString
  | u :: v :: text => if u = unit '*' ∧ v = unit '/' then some text else afterClose (v :: text)
  | _ => none

/-- `sql.replace(/\/\*[\s\S]*?\*\//g, ' ')`, inside of a comment or outside. -/
def withoutBlockComments : Bool → JsString → JsString
  | inComment, u :: v :: text =>
    if inComment then
      if u = unit '*' ∧ v = unit '/' then withoutBlockComments false text
      else withoutBlockComments true (v :: text)
    else if u = unit '/' ∧ v = unit '*' ∧ (afterClose text).isSome then
      unit ' ' :: withoutBlockComments true text
    else u :: withoutBlockComments false (v :: text)
  | true, [_] => []
  | false, [u] => [u]
  | _, [] => []

/-- The line up to the first marker that is not in a string. -/
def stripLineCommentFromLine (marker : JsString) (stringQuote : CodeUnit) :
    Bool → JsString → JsString
  | _, [] => []
  | inString, u :: line =>
    let inString' := if u = stringQuote then !inString else inString
    if inString' = false ∧ startsWith (u :: line) marker then []
    else u :: stripLineCommentFromLine marker stringQuote inString' line

def stripLineComments (text marker : JsString) (stringQuote : CodeUnit) : JsString :=
  join [lineFeed] ((text.splitOn lineFeed).map
    (stripLineCommentFromLine marker stringQuote false))

def stripSqlComments (sql : JsString) : JsString :=
  stripLineComments (withoutBlockComments false sql) (js "--") (unit '\'')

end Comments

section Pattern

def doubleQuote : CodeUnit := unit '\x22'

/-- A word of the pattern, which ignores case. -/
def matchWord (word text : JsString) : Option JsString :=
  if asciiLower (text.take word.length) = word then some (text.drop word.length) else none

/-- `\s*`. -/
def skipSpaces (text : JsString) : JsString := text.dropWhile isWhiteSpace

/-- `\s+`. -/
def matchSpaces : JsString → Option JsString
  | [] => none
  | u :: text => if isWhiteSpace u then some (skipSpaces text) else none

def matchUnit (u : CodeUnit) : JsString → Option JsString
  | [] => none
  | v :: text => if v = u then some text else none

/-- One or more signs other than `stop`, and `stop` after them. -/
def matchUntil (stop : CodeUnit) (text : JsString) : Option (JsString × JsString) :=
  let taken := text.takeWhile (· ≠ stop)
  if taken = [] then none else (matchUnit stop (text.dropWhile (· ≠ stop))).map (taken, ·)

/-- `"([^"]+)"`. -/
def matchQuoted (text : JsString) : Option (JsString × JsString) :=
  (matchUnit doubleQuote text).bind (matchUntil doubleQuote)

/-- `(?:"[^"]+"\s*\.\s*)?"([^"]+)"`, in the order in which its ways are tried. -/
def tableRefs (text : JsString) : List (JsString × JsString) :=
  ((matchQuoted text).bind (fun schema =>
    (matchUnit (unit '.') (skipSpaces schema.2)).bind (fun rest =>
      matchQuoted (skipSpaces rest)))).toList ++ (matchQuoted text).toList

/-- What the pattern finds: the groups of the one alternative, or of the other. -/
inductive Found where
  | create (name table fields : JsString)
  | drop (name : JsString)
  deriving DecidableEq

/-- `CREATE\s+INDEX\s+"([^"]+)"\s+ON\s+<table>\s*\(([^)]+)\)`. -/
def matchCreate (text : JsString) : Option (Found × JsString) := do
  let text ← matchSpaces (← matchWord (js "create") text)
  let text ← matchSpaces (← matchWord (js "index") text)
  let (name, text) ← matchQuoted text
  let text ← matchSpaces text
  let text ← matchSpaces (← matchWord (js "on") text)
  (tableRefs text).findSome? (fun table => do
    let rest ← matchUnit (unit '(') (skipSpaces table.2)
    let (fields, rest) ← matchUntil (unit ')') rest
    return (.create name table.1 fields, rest))

/-- `IF\s+EXISTS\s+`. -/
def matchIfExists (text : JsString) : Option JsString := do
  let text ← matchSpaces (← matchWord (js "if") text)
  matchSpaces (← matchWord (js "exists") text)

/-- `DROP\s+INDEX\s+(?:IF\s+EXISTS\s+)?<table>`. -/
def matchDrop (text : JsString) : Option (Found × JsString) := do
  let text ← matchSpaces (← matchWord (js "drop") text)
  let text ← matchSpaces (← matchWord (js "index") text)
  ((matchIfExists text).toList ++ [text]).findSome? (fun text =>
    (tableRefs text).head?.map (fun name => (.drop name.1, name.2)))

def matchStatement (text : JsString) : Option (Found × JsString) :=
  (matchCreate text).or (matchDrop text)

/-- `text.matchAll(statementPattern)`; so many signs at the start belong to the match before. -/
def matchAll : ℕ → JsString → List Found
  | _, [] => []
  | skip + 1, _ :: text => matchAll skip text
  | 0, u :: text =>
    match matchStatement (u :: text) with
    | some (found, rest) => found :: matchAll (text.length - rest.length) text
    | none => matchAll 0 text

end Pattern

section Replay

variable (toLowerCase : JsString → JsString)

/-- `value.replace(/_([a-z])/g, ...)` with the letter in upper case. -/
def snakeToCamel : JsString → JsString
  | u :: v :: text =>
    if u = unit '_' ∧ unit 'a' ≤ v ∧ v ≤ unit 'z' then (v - 32) :: snakeToCamel text
    else u :: snakeToCamel (v :: text)
  | text => text

def parseMigrationFields (value : JsString) : List JsString :=
  ((((value.splitOn (unit ',')).map trim).filter (· ≠ [])).map
    (fun field => ((matchQuoted field).map Prod.fst).getD field)).map snakeToCamel

/-- A statement that was found, on the indexes that are live by name. -/
def replay (notificationTableName : Option JsString) (live : Entries JsString (List JsString)) :
    Found → Entries JsString (List JsString)
  | .create name table fields =>
    if ∃ tableName ∈ notificationTableName, tableName ≠ [] ∧
        toLowerCase table ≠ toLowerCase tableName then live
    else InsertionMap.set live name (parseMigrationFields fields)
  | .drop name => live.filter (fun e => e.1 ≠ name)

def computeLiveMigrationIndexes (migrationText : JsString)
    (notificationTableName : Option JsString) : List (List JsString) :=
  ((matchAll 0 migrationText).foldl (replay toLowerCase notificationTableName) []).map Prod.snd

/-- `migrationIndexes` of `parseNotificationSchemaMetadata`, each with its fields. -/
def migrationIndexes (migrationText : JsString) (notificationTableName : Option JsString) :
    Option (List (List JsString)) :=
  let strippedMigration := stripSqlComments migrationText
  if trim strippedMigration = [] then none
  else some (computeLiveMigrationIndexes toLowerCase strippedMigration notificationTableName)

end Replay

end Appspine.MigrationScan
